import Callisto.Hot.AuditRuns

/-! The order of entries through a flush, and what one group's transaction does to the rows. -/

namespace Callisto.Hot

open Callisto.Library

section
variable {ρ : Type}

theorem ordered_nil : Ordered ([] : List (AuditEntry ρ)) := fun _ => List.Pairwise.nil

theorem Ordered.sublist {short long : List (AuditEntry ρ)} (ordered : Ordered long) (part : short.Sublist long) : Ordered short :=
  fun kind => (ordered kind).sublist (part.filter _)

theorem ordered_append {first second : List (AuditEntry ρ)} : Ordered (first ++ second) ↔
    Ordered first ∧ Ordered second ∧ ∀ entry ∈ first, ∀ later ∈ second, entry.kind = later.kind → entry.stamp < later.stamp := by
  constructor
  · intro ordered
    refine ⟨ordered.sublist (List.sublist_append_left _ _), ordered.sublist (List.sublist_append_right _ _), ?_⟩
    intro entry member later laterMember same
    have both := ordered later.kind
    rw [List.filter_append, List.pairwise_append] at both
    exact both.2.2 entry (List.mem_filter.2 ⟨member, by simp [same]⟩) later (List.mem_filter.2 ⟨laterMember, by simp⟩)
  · rintro ⟨ordered, laterOrdered, across⟩ kind
    rw [List.filter_append, List.pairwise_append]
    refine ⟨ordered kind, laterOrdered kind, fun entry member later laterMember => ?_⟩
    have entryKind := List.mem_filter.1 member
    have laterKind := List.mem_filter.1 laterMember
    have same : entry.kind = later.kind := (of_decide_eq_true entryKind.2).trans (of_decide_eq_true laterKind.2).symm
    exact across entry entryKind.1 later laterKind.1 same

variable {entries : List (AuditEntry ρ)}

theorem Ordered.map_retried (ordered : Ordered entries) : Ordered (entries.map AuditEntry.retried) := by
  intro kind
  rw [List.filter_map, List.pairwise_map]
  exact ordered kind

theorem Ordered.single (entry : AuditEntry ρ) : Ordered [entry] := by
  intro kind
  by_cases same : entry.kind = kind
  · simp [same]
  · simp [same]

theorem filter_splitGroups (batch : List (AuditEntry ρ)) (kind : AuditKind) :
    ((AuditState.splitGroups batch).flatten.filter fun entry => entry.kind = kind) = batch.filter fun entry => entry.kind = kind := by
  have own : ∀ group, ((batch.filter fun entry => entry.kind.group = group).filter fun entry => entry.kind = kind) =
      if kind.group = group then batch.filter fun entry => entry.kind = kind else [] := by
    intro group
    rw [List.filter_filter]
    by_cases same : kind.group = group
    · rw [if_pos same]
      apply List.filter_congr
      intro entry _
      by_cases here : entry.kind = kind
      · simp [here, same]
      · simp [here]
    · rw [if_neg same]
      apply List.filter_eq_nil_iff.2
      intro entry _ both
      have parts := (Bool.and_eq_true _ _).mp both
      have here : entry.kind = kind := of_decide_eq_true parts.1
      have group_same : entry.kind.group = group := of_decide_eq_true parts.2
      rw [here] at group_same
      exact same group_same
  unfold AuditState.splitGroups auditGroups
  simp only [List.map_cons, List.map_nil, List.flatten_cons, List.flatten_nil, List.append_nil, List.filter_append, own]
  cases kind with
  | decision => simp [AuditKind.group]
  | decisionChecks => simp [AuditKind.group]
  | consumption => simp [AuditKind.group]
  | cursor => simp [AuditKind.group]
  | signalStatus => simp [AuditKind.group]
  | traderEvent => simp [AuditKind.group]
  | experimentAssignment => simp [AuditKind.group]

theorem Ordered.splitGroups {batch : List (AuditEntry ρ)} (ordered : Ordered batch) : Ordered (AuditState.splitGroups batch).flatten := by
  intro kind
  rw [filter_splitGroups]
  exact ordered kind

theorem mem_splitGroups {batch : List (AuditEntry ρ)} {entry : AuditEntry ρ} :
    entry ∈ (AuditState.splitGroups batch).flatten ↔ entry ∈ batch := by
  have of_kind : ∀ entries : List (AuditEntry ρ), entry ∈ entries ↔ entry ∈ entries.filter fun other => other.kind = entry.kind := by
    intro entries
    simp
  rw [of_kind, filter_splitGroups, ← of_kind]

theorem Ordered.sorted {time : ℕ → ℕ} (forward : Monotone time) {batch : List (AuditEntry ρ)} (ordered : Ordered batch) :
    Ordered (batch.insertionSort (AuditState.BatchLe time)) := by
  intro kind
  have le : (batch.filter fun entry => entry.kind = kind).Pairwise fun first second => AuditState.BatchLe time first second := by
    apply (ordered kind).imp_of_mem
    intro first second firstMember secondMember before
    have firstKind : first.kind = kind := of_decide_eq_true (List.mem_filter.1 firstMember).2
    have secondKind : second.kind = kind := of_decide_eq_true (List.mem_filter.1 secondMember).2
    unfold AuditState.BatchLe
    rw [firstKind, secondKind]
    exact Or.inr ⟨rfl, forward (le_of_lt before)⟩
  have within : (batch.filter fun entry => entry.kind = kind).Sublist (batch.insertionSort (AuditState.BatchLe time)) :=
    List.sublist_insertionSort le List.filter_sublist
  have kept : (batch.filter fun entry => entry.kind = kind).Sublist
      ((batch.insertionSort (AuditState.BatchLe time)).filter fun entry => entry.kind = kind) := by
    have filtered := within.filter fun entry => decide (entry.kind = kind)
    rw [List.filter_filter] at filtered
    simpa using filtered
  have length : (batch.filter fun entry => entry.kind = kind).length =
      ((batch.insertionSort (AuditState.BatchLe time)).filter fun entry => entry.kind = kind).length :=
    ((List.perm_insertionSort (AuditState.BatchLe time) batch).filter _).length_eq.symm
  rw [← kept.eq_of_length length]
  exact ordered kind

section
variable {κ : Type} [DecidableEq κ] {key : AuditEntry ρ → Option κ} {row : AuditEntry ρ → Option (UpsertRow ρ) → Option (UpsertRow ρ)}

theorem lastFor_cons (name : κ) (entry : AuditEntry ρ) (rest : List (AuditEntry ρ)) : AuditState.lastFor key name (entry :: rest) =
    (AuditState.lastFor key name rest).or (if key entry = some name then some entry else none) := rfl

theorem lastFor_some {name : κ} {winner : AuditEntry ρ}
    (found : AuditState.lastFor key name entries = some winner) : winner ∈ entries ∧ key winner = some name := by
  induction entries with
  | nil => cases found
  | cons entry rest ih =>
    rw [lastFor_cons] at found
    cases later : AuditState.lastFor key name rest with
    | some other =>
      rw [later] at found
      have same : other = winner := Option.some.inj found
      rw [same] at later
      have inRest := ih later
      exact ⟨List.mem_cons_of_mem _ inRest.1, inRest.2⟩
    | none =>
      rw [later] at found
      by_cases here : key entry = some name
      · rw [if_pos here] at found
        have same : entry = winner := Option.some.inj found
        rw [← same]
        exact ⟨List.mem_cons_self, here⟩
      · rw [if_neg here] at found
        cases found

theorem lastFor_none {name : κ} (missing : AuditState.lastFor key name entries = none) :
    ∀ entry ∈ entries, key entry ≠ some name := by
  induction entries with
  | nil => intro entry member; cases member
  | cons head rest ih =>
    rw [lastFor_cons, Option.or_eq_none_iff] at missing
    intro entry member
    cases List.mem_cons.1 member with
    | inl same =>
      rw [same]
      intro here
      rw [if_pos here] at missing
      cases missing.2
    | inr inRest => exact ih missing.1 entry inRest

/-- In an ordered list the entry that wins for a key is the latest, where the key is of one kind. -/
theorem lastFor_latest {kind : AuditKind} (keyed : ∀ entry name, key entry = some name → entry.kind = kind) {name : κ}
    (ordered : Ordered entries) {winner other : AuditEntry ρ}
    (won : AuditState.lastFor key name entries = some winner) (member : other ∈ entries) (same : key other = some name) :
    other.stamp ≤ winner.stamp := by
  induction entries with
  | nil => cases member
  | cons entry rest ih =>
    have parts := (@ordered_append ρ [entry] rest).1 ordered
    rw [lastFor_cons] at won
    cases later : AuditState.lastFor key name rest with
    | some last =>
      rw [later] at won
      have equal : last = winner := Option.some.inj won
      rw [equal] at later
      rcases List.mem_cons.1 member with rfl | inRest
      · have found := lastFor_some later
        have kinds := (keyed other name same).trans (keyed winner name found.2).symm
        exact (parts.2.2 other List.mem_cons_self winner found.1 kinds).le
      · exact ih parts.2.1 later inRest
    | none =>
      rw [later, Option.none_or] at won
      rcases List.mem_cons.1 member with rfl | inRest
      · rw [if_pos same] at won
        rw [Option.some.inj won]
      · exact absurd same (lastFor_none later other inRest)

def Makes (key : AuditEntry ρ → Option κ) (row : AuditEntry ρ → Option (UpsertRow ρ) → Option (UpsertRow ρ)) : Prop :=
  ∀ entry name before, key entry = some name →
    ∃ value, row entry before = some value ∧ value.stamp = entry.stamp ∧ entry.content = some value.row

theorem get?_upsertAll (makes : Makes key row) (before : Dict κ (UpsertRow ρ)) (entries : List (AuditEntry ρ)) (name : κ) :
    (upsertAll key row before entries).get? name =
      match AuditState.lastFor key name entries with
      | some winner => row winner (before.get? name)
      | none => before.get? name := by
  have fold : ∀ table : Dict κ (UpsertRow ρ), (entries.foldl (fun table entry => (key entry).elim table fun name =>
      (row entry (before.get? name)).elim table fun value => table.set name value) table).get? name =
      match AuditState.lastFor key name entries with
      | some winner => row winner (before.get? name)
      | none => table.get? name := by
    induction entries with
    | nil =>
      intro table
      rfl
    | cons entry rest ih =>
      intro table
      rw [List.foldl_cons, ih, lastFor_cons]
      cases later : AuditState.lastFor key name rest with
      | some winner => rfl
      | none =>
        rw [Option.none_or]
        cases found : key entry with
        | none => simp
        | some other =>
          obtain ⟨value, made, -, -⟩ := makes entry other (before.get? other) found
          simp only [Option.elim_some, made, Dict.get?_set]
          by_cases same : other = name
          · rw [same] at made
            simp [same, made]
          · simp [same]
  rw [← fold before]
  unfold upsertAll
  congr 2
  funext table entry
  cases key entry with
  | none => rfl
  | some name => cases found : row entry (before.get? name) <;> simp only [found, Option.elim]

theorem carriesLast_iff (makes : Makes key row) {table : Dict κ (UpsertRow ρ)} {persisted entries : List (AuditEntry ρ)}
    (before : CarriesLast key table persisted) :
    CarriesLast key (upsertAll key row table entries) (persisted ++ entries) ↔ AuditState.WinsLast key persisted entries := by
  constructor
  · intro after entry member name keyed winner won other otherMember otherKeyed
    obtain ⟨value, found, last, -, -, stamp, -, bound⟩ := after other otherMember name otherKeyed
    have made := lastFor_some won
    obtain ⟨own, ownMade, ownStamp, -⟩ := makes winner name (table.get? name) made.2
    rw [get?_upsertAll makes, won] at found
    have same : value = own := Option.some.inj (found.symm.trans ownMade)
    rw [same] at stamp
    omega
  · intro wins entry member name keyed
    rw [get?_upsertAll makes]
    cases won : AuditState.lastFor key name entries with
    | none =>
      have old : entry ∈ persisted := by
        cases List.mem_append.1 member with
        | inl old => exact old
        | inr new => exact absurd keyed (lastFor_none won entry new)
      obtain ⟨value, found, last, lastMember, rest⟩ := before entry old name keyed
      exact ⟨value, found, last, List.mem_append_left _ lastMember, rest⟩
    | some winner =>
      have made := lastFor_some won
      obtain ⟨own, ownMade, ownStamp, content⟩ := makes winner name (table.get? name) made.2
      have bound := wins winner made.1 name made.2 winner won entry member keyed
      exact ⟨own, ownMade, winner, List.mem_append_right _ made.1, made.2, ownStamp.symm, content, bound⟩

end

theorem makes_cursor : Makes (AuditEntry.cursorKey (ρ := ρ)) AuditEntry.cursorRow := by
  intro entry name before keyed
  unfold AuditEntry.cursorKey at keyed
  unfold AuditEntry.cursorRow AuditEntry.content
  cases payload : entry.payload with
  | cursor traderId row => exact ⟨_, rfl, rfl, rfl⟩
  | _ => simp [payload] at keyed

theorem makes_consumption (decisions : Dict String ρ) : Makes (AuditEntry.consumptionKey (ρ := ρ)) (AuditEntry.consumptionRow decisions) := by
  intro entry name before keyed
  unfold AuditEntry.consumptionKey at keyed
  unfold AuditEntry.consumptionRow AuditEntry.content
  cases payload : entry.payload with
  | consumption traderId signalId decisionId row => exact ⟨_, rfl, rfl, rfl⟩
  | _ => simp [payload] at keyed

theorem kind_of_cursorKey (entry : AuditEntry ρ) (name : String) (keyed : entry.cursorKey = some name) : entry.kind = .cursor := by
  unfold AuditEntry.cursorKey at keyed
  unfold AuditEntry.kind
  cases payload : entry.payload with
  | cursor traderId row => rfl
  | _ => simp [payload] at keyed

theorem kind_of_consumptionKey (entry : AuditEntry ρ) (name : String × String) (keyed : entry.consumptionKey = some name) :
    entry.kind = .consumption := by
  unfold AuditEntry.consumptionKey at keyed
  unfold AuditEntry.kind
  cases payload : entry.payload with
  | consumption traderId signalId decisionId row => rfl
  | _ => simp [payload] at keyed

theorem origin_checkRows (decisions : Dict String ρ) (entry : AuditEntry ρ) :
    ∀ origin ∈ (entry.checkRows decisions).map CheckRow.origin, origin.1 = entry.stamp ∧ entry.kind = .decisionChecks := by
  intro origin member
  unfold AuditEntry.checkRows at member
  unfold AuditEntry.kind
  cases payload : entry.payload with
  | decisionChecks decisionId checks =>
    simp only [payload] at member
    split at member
    · simp only [List.map_map, List.mem_map] at member
      obtain ⟨check, -, rfl⟩ := member
      exact ⟨rfl, rfl⟩
    · cases member
  | _ => simp [payload] at member

theorem nodup_checkRows (decisions : Dict String ρ) (ordered : Ordered entries) :
    ((entries.flatMap (AuditEntry.checkRows decisions)).map CheckRow.origin).Nodup := by
  have origins := @origin_checkRows ρ decisions
  rw [List.map_flatMap, List.nodup_flatMap]
  constructor
  · intro entry member
    unfold AuditEntry.checkRows
    split
    · rename_i decisionId checks _
      split
      · rw [List.map_map]
        have places : (checks.zipIdx.map Prod.snd).Nodup := by
          rw [List.zipIdx_map_snd]
          exact List.nodup_range'
        have pairs := places.map (f := fun place => (entry.stamp, place)) fun first second same => (Prod.mk.inj same).2
        rw [List.map_map] at pairs
        exact pairs
      · exact List.nodup_nil
    · exact List.nodup_nil
  · have pairs := List.pairwise_filter.1 (ordered .decisionChecks)
    apply pairs.imp
    intro first second before origin firstMember secondMember
    have firstOrigin := origins first origin firstMember
    have secondOrigin := origins second origin secondMember
    have apart := before (decide_eq_true firstOrigin.2) (decide_eq_true secondOrigin.2)
    omega

end

end Callisto.Hot
