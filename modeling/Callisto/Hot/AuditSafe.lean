import Callisto.Hot.AuditOrder

/-! The promises of the audit buffer hold over every run whose flushes do not overlap and whose cancelled groups do not commit. -/

namespace Callisto.Hot

open Callisto.Library

section
variable {ρ : Type}

namespace AuditState

/-- A group's transaction keeps the rows as promised exactly when it may write the group. -/
theorem rows_write_iff {state : AuditState ρ} (good : state.AuditGood) {entries : List (AuditEntry ρ)} (ordered : Ordered entries) :
    (((state.database.write entries).checks.map CheckRow.origin).Nodup ∧
      CarriesLast AuditEntry.cursorKey (state.database.write entries).cursors (state.persisted ++ entries) ∧
      CarriesLast AuditEntry.consumptionKey (state.database.write entries).consumptions (state.persisted ++ entries)) ↔
    state.Writable entries := by
  have cursors := @carriesLast_iff ρ _ _ _ _ makes_cursor _ _ entries good.cursors
  have consumptions := @carriesLast_iff ρ _ _ _ _ (makes_consumption (state.database.write entries).decisions) _ _ entries good.consumptions
  have new := nodup_checkRows (state.database.write entries).decisions ordered
  have checks : ((state.database.write entries).checks.map CheckRow.origin).Nodup ↔
      ∀ row ∈ entries.flatMap (AuditEntry.checkRows (state.database.write entries).decisions),
        row.origin ∉ state.database.checks.map CheckRow.origin := by
    have rows : (state.database.write entries).checks = state.database.checks ++
      entries.flatMap (AuditEntry.checkRows (state.database.write entries).decisions) := rfl
    rw [rows, List.map_append, List.nodup_append]
    constructor
    · intro both row member held
      exact both.2.2 row.origin held row.origin (List.mem_map_of_mem member) rfl
    · intro apart
      refine ⟨good.once, new, fun first held second member same => ?_⟩
      obtain ⟨row, rowMember, rfl⟩ := List.mem_map.1 member
      rw [same] at held
      exact apart row rowMember held
  constructor
  · intro rows
    exact ⟨checks.1 rows.1, cursors.1 rows.2.1, consumptions.1 rows.2.2⟩
  · intro writable
    exact ⟨checks.2 writable.checks, cursors.2 writable.cursors, consumptions.2 writable.consumptions⟩

/-- Where entries stand, and in which order, whatever the rows. -/
structure AuditInv (state : AuditState ρ) : Prop where
  flights : ∀ flush flight, state.flights flush = some flight → Ordered (flight.failed ++ flight.groups.flatten)
  late : ∀ entries ∈ state.late, Ordered entries
  fresh : ∀ entry ∈ state.buffer, entry.stamp < state.next
  flying : ∀ flush flight, state.flights flush = some flight →
    ∀ entry ∈ flight.failed ++ flight.groups.flatten, entry.stamp < state.next

theorem Accounted.move {state after : AuditState ρ} {stamp : ℕ} (accounted : state.Accounted stamp)
    (buffer : ∀ entry ∈ state.buffer, after.Accounted entry.stamp)
    (flights : ∀ flush flight, state.flights flush = some flight →
      ∀ entry ∈ flight.failed ++ flight.groups.flatten, after.Accounted entry.stamp)
    (persisted : ∀ entry ∈ state.persisted, entry ∈ after.persisted) (dropped : ∀ entry ∈ state.dropped, entry ∈ after.dropped) :
    after.Accounted stamp := by
  rcases accounted with ⟨entry, member, rfl⟩ | ⟨flush, flight, flying, entry, member, rfl⟩ | ⟨entry, member, same⟩ | ⟨entry, member, same⟩
  · exact buffer entry member
  · exact flights flush flight flying entry member
  · exact Or.inr (Or.inr (Or.inl ⟨entry, persisted entry member, same⟩))
  · exact Or.inr (Or.inr (Or.inr ⟨entry, dropped entry member, same⟩))

theorem accounted_buffer {state : AuditState ρ} {entry : AuditEntry ρ} (member : entry ∈ state.buffer) : state.Accounted entry.stamp :=
  Or.inl ⟨entry, member, rfl⟩

theorem accounted_flight {state : AuditState ρ} {flush : ℕ} {flight : Flight ρ} (flying : state.flights flush = some flight)
    {entry : AuditEntry ρ} (member : entry ∈ flight.failed ++ flight.groups.flatten) : state.Accounted entry.stamp :=
  Or.inr (Or.inl ⟨flush, flight, flying, entry, member, rfl⟩)

theorem flights_update {flights : ℕ → Option (Flight ρ)} {flush other : ℕ} {next : Option (Flight ρ)} {flight : Flight ρ}
    (found : Function.update flights flush next other = some flight) :
    (other = flush ∧ next = some flight) ∨ (other ≠ flush ∧ flights other = some flight) := by
  by_cases same : other = flush
  · rw [same, Function.update_self] at found
    exact Or.inl ⟨same, found⟩
  · rw [Function.update_of_ne same] at found
    exact Or.inr ⟨same, found⟩

theorem accounted_endGroup {state after : AuditState ρ} {flush : ℕ} {entries failed more : List (AuditEntry ρ)}
    {rest : List (List (AuditEntry ρ))} (flying : state.flights flush = some ⟨entries :: rest, failed⟩)
    (flights : after.flights = Function.update state.flights flush (some ⟨rest, failed ++ more⟩)) (buffer : after.buffer = state.buffer)
    (persisted : ∀ entry ∈ state.persisted, entry ∈ after.persisted) (dropped : after.dropped = state.dropped)
    (own : ∀ entry ∈ entries, after.Accounted entry.stamp) {stamp : ℕ} (accounted : state.Accounted stamp) : after.Accounted stamp := by
  have here : after.flights flush = some ⟨rest, failed ++ more⟩ := by
    rw [flights, Function.update_self]
  refine accounted.move (fun entry member => ?_) (fun other flight found entry member => ?_) persisted fun entry member => ?_
  · rw [← buffer] at member
    exact accounted_buffer member
  · by_cases same : other = flush
    · rw [same, flying] at found
      rw [← Option.some.inj found] at member
      rcases List.mem_append.1 member with old | waiting
      · exact accounted_flight here (List.mem_append_left _ (List.mem_append_left _ old))
      · rcases List.mem_append.1 ((List.flatten_cons ▸ waiting : entry ∈ entries ++ rest.flatten)) with ownMember | later
        · exact own entry ownMember
        · exact accounted_flight here (List.mem_append_right _ later)
    · have there : after.flights other = some flight := by
        rw [flights, Function.update_of_ne same, found]
      exact accounted_flight there member
  · rw [dropped]
    exact member

theorem inv_endGroup {state after : AuditState ρ} (inv : state.AuditInv) {flush : ℕ} {entries failed more : List (AuditEntry ρ)}
    {rest : List (List (AuditEntry ρ))} (flying : state.flights flush = some ⟨entries :: rest, failed⟩)
    (flights : after.flights = Function.update state.flights flush (some ⟨rest, failed ++ more⟩)) (buffer : after.buffer = state.buffer)
    (next : after.next = state.next) (late : ∀ group ∈ after.late, Ordered group) (moreOrdered : Ordered more)
    (moved : ∀ entry ∈ more, ∃ old ∈ entries, old.stamp = entry.stamp ∧ old.kind = entry.kind) : after.AuditInv := by
  have held := inv.flights flush _ flying
  have stamps := inv.flying flush _ flying
  simp only [List.flatten_cons] at held stamps
  constructor
  · intro other flight found
    rw [flights] at found
    rcases flights_update found with ⟨-, same⟩ | ⟨-, there⟩
    · rw [← Option.some.inj same]
      have outer := ordered_append.1 held
      have inner := ordered_append.1 outer.2.1
      rw [List.append_assoc]
      refine ordered_append.2 ⟨outer.1, ordered_append.2 ⟨moreOrdered, inner.2.1, fun entry member later laterMember same => ?_⟩,
        fun entry member later laterMember same => ?_⟩
      · obtain ⟨old, oldMember, stamp, kind⟩ := moved entry member
        have before := inner.2.2 old oldMember later laterMember (kind.trans same)
        omega
      · rcases List.mem_append.1 laterMember with new | later_rest
        · obtain ⟨old, oldMember, stamp, kind⟩ := moved later new
          have before := outer.2.2 entry member old (List.mem_append_left _ oldMember) (same.trans kind.symm)
          omega
        · exact outer.2.2 entry member later (List.mem_append_right _ later_rest) same
    · exact inv.flights other flight there
  · exact late
  · intro entry member
    rw [buffer] at member
    rw [next]
    exact inv.fresh entry member
  · intro other flight found entry member
    rw [flights] at found
    rw [next]
    rcases flights_update found with ⟨-, same⟩ | ⟨-, there⟩
    · rw [← Option.some.inj same] at member
      rcases List.mem_append.1 member with front | later
      · rcases List.mem_append.1 front with old | new
        · exact stamps entry (List.mem_append_left _ old)
        · obtain ⟨before, beforeMember, stamp, -⟩ := moved entry new
          rw [← stamp]
          exact stamps before (List.mem_append_right _ (List.mem_append_left _ beforeMember))
      · exact stamps entry (List.mem_append_right _ (List.mem_append_right _ later))
    · exact inv.flying other flight there entry member

variable {time : ℕ → ℕ} {state : AuditState ρ} {flush : ℕ} {entries failed more : List (AuditEntry ρ)} {rest : List (List (AuditEntry ρ))}

/-- What one step has to show: the promises hold after it exactly where it is sound, and entries stand in order. -/
def Exact (time : ℕ → ℕ) (state : AuditState ρ) (event : AuditEvent ρ) : Prop :=
  ((state.step time event).AuditGood ↔ state.AuditSound event) ∧ (state.step time event).AuditInv

theorem Exact.unchanged (inv : state.AuditInv) (good : state.AuditGood) {event : AuditEvent ρ} (same : state.step time event = state)
    (sound : state.AuditSound event) : Exact time state event := by
  unfold Exact
  rw [same]
  exact ⟨iff_of_true good sound, inv⟩

theorem step_append {payload : AuditPayload ρ} (below : state.BelowCap (.append payload)) : state.step time (.append payload) =
    { state with buffer := state.buffer ++ [⟨state.next, payload, 0⟩], next := state.next + 1 } := by
  have short : (state.buffer ++ [(⟨state.next, payload, 0⟩ : AuditEntry ρ)]).length - auditBufferMaxSize = 0 := by
    have below' : state.buffer.length < auditBufferMaxSize := below
    rw [List.length_append, List.length_singleton]
    omega
  unfold AuditState.step
  simp only [short, List.drop_zero]

theorem exact_append (inv : state.AuditInv) (good : state.AuditGood) (payload : AuditPayload ρ)
    (below : state.BelowCap (.append payload)) : Exact time state (.append payload) := by
  unfold Exact
  rw [step_append below]
  constructor
  · refine iff_of_true ⟨fun stamp before => ?_, good.once, ?_, good.cursors, good.consumptions⟩ trivial
    · rcases Nat.lt_succ_iff_lt_or_eq.1 before with old | new
      · exact (good.accounted stamp old).move (fun entry member => accounted_buffer (List.mem_append_left _ member))
          (fun flush flight flying entry member => Or.inr (Or.inl ⟨flush, flight, flying, entry, member, rfl⟩)) (fun _ member => member)
          fun _ member => member
      · rw [new]
        exact Or.inl ⟨⟨state.next, payload, 0⟩, List.mem_append_right _ List.mem_cons_self, rfl⟩
    · refine ordered_append.2 ⟨good.ordered, Ordered.single _, fun entry member later laterMember _ => ?_⟩
      rw [List.mem_singleton.1 laterMember]
      exact inv.fresh entry member
  · constructor
    · exact inv.flights
    · exact inv.late
    · intro entry member
      rcases List.mem_append.1 member with old | new
      · exact (inv.fresh entry old).trans (Nat.lt_succ_self _)
      · rw [List.mem_singleton.1 new]
        exact Nat.lt_succ_self _
    · intro flush flight flying entry member
      exact (inv.flying flush flight flying entry member).trans (Nat.lt_succ_self _)

theorem exact_takeBatch (forward : Monotone time) (inv : state.AuditInv) (good : state.AuditGood) (flush : ℕ) :
    Exact time state (.takeBatch flush) := by
  cases flying : state.flights flush with
  | some flight =>
    have same : state.step time (.takeBatch flush) = state := by
      unfold AuditState.step
      simp only [flying]
    exact Exact.unchanged inv good same trivial
  | none =>
    by_cases empty : state.buffer.isEmpty = true
    · have same : state.step time (.takeBatch flush) = state := by
        unfold AuditState.step
        simp only [flying, if_pos empty]
      exact Exact.unchanged inv good same trivial
    · have batchOrdered : Ordered ((state.buffer.take auditFlushBatchSize).insertionSort (BatchLe time)) :=
        (good.ordered.sublist (List.take_sublist _ _)).sorted forward
      have member_batch : ∀ entry, entry ∈ (state.buffer.take auditFlushBatchSize).insertionSort (BatchLe time) ↔
          entry ∈ state.buffer.take auditFlushBatchSize := fun entry => List.mem_insertionSort _
      have taken : state.step time (.takeBatch flush) =
          { state with
            buffer := state.buffer.drop auditFlushBatchSize
            flights := Function.update state.flights flush
              (some ⟨splitGroups ((state.buffer.take auditFlushBatchSize).insertionSort (BatchLe time)), []⟩) } := by
        unfold AuditState.step
        simp only [flying, if_neg empty]
      unfold Exact
      rw [taken]
      constructor
      · refine iff_of_true ⟨fun stamp before => ?_, good.once, good.ordered.sublist (List.drop_sublist _ _), good.cursors,
          good.consumptions⟩ trivial
        refine (good.accounted stamp before).move (fun entry member => ?_) (fun other flight found entry member => ?_)
          (fun _ member => member) fun _ member => member
        · rw [← List.take_append_drop auditFlushBatchSize state.buffer] at member
          rcases List.mem_append.1 member with front | back
          · refine @accounted_flight ρ _ flush _ (Function.update_self _ _ _) entry ?_
            rw [List.nil_append, mem_splitGroups, member_batch]
            exact front
          · exact accounted_buffer back
        · have different : other ≠ flush := by
            intro same
            rw [same, flying] at found
            cases found
          exact @accounted_flight ρ _ other flight ((Function.update_of_ne different _ _).trans found) entry member
      · constructor
        · intro other flight found
          rcases flights_update found with ⟨-, same⟩ | ⟨-, there⟩
          · rw [← Option.some.inj same]
            rw [List.nil_append]
            exact batchOrdered.splitGroups
          · exact inv.flights other flight there
        · exact inv.late
        · intro entry member
          exact inv.fresh entry (List.mem_of_mem_drop member)
        · intro other flight found entry member
          rcases flights_update found with ⟨-, same⟩ | ⟨-, there⟩
          · rw [← Option.some.inj same, List.nil_append, mem_splitGroups, member_batch] at member
            exact inv.fresh entry (List.mem_of_mem_take member)
          · exact inv.flying other flight there entry member

theorem ordered_next (inv : state.AuditInv) {entries failed : List (AuditEntry ρ)}
    (flying : state.flights flush = some ⟨entries :: rest, failed⟩) : Ordered entries := by
  have held := inv.flights flush _ flying
  rw [List.flatten_cons] at held
  exact (ordered_append.1 (ordered_append.1 held).2.1).1

theorem step_idle (idle : ¬∃ entries rest failed, state.flights flush = some ⟨entries :: rest, failed⟩) (infra : Bool) :
    state.step time (.groupCommits flush) = state ∧ state.step time (.groupFails flush infra) = state ∧
      state.step time (.groupCancelled flush) = state := by
  unfold AuditState.step
  cases flying : state.flights flush with
  | none => simp only [flying, and_self]
  | some flight =>
    obtain ⟨groups, failed⟩ := flight
    cases groups with
    | nil => simp only [flying, and_self]
    | cons entries rest => exact absurd ⟨entries, rest, failed, flying⟩ idle

theorem exact_groupCommits (inv : state.AuditInv) (good : state.AuditGood) (flush : ℕ) : Exact time state (.groupCommits flush) := by
  by_cases group : ∃ entries rest failed, state.flights flush = some ⟨entries :: rest, failed⟩
  · obtain ⟨entries, rest, failed, flying⟩ := group
    have stepped : state.step time (.groupCommits flush) =
        (state.persist entries).endGroup flush ⟨entries :: rest, failed⟩ rest [] := by
      unfold AuditState.step
      simp only [flying]
    have ordered := ordered_next inv flying
    have sound : state.AuditSound (.groupCommits flush) ↔ state.Writable entries := by
      constructor
      · intro sound
        exact sound _ flying entries rfl
      · intro writable flight member others head
        rw [flying] at member
        rw [← Option.some.inj member] at head
        rw [← Option.some.inj head]
        exact writable
    unfold Exact
    rw [stepped, sound]
    constructor
    · constructor
      · intro after
        exact (rows_write_iff good ordered).1 ⟨after.once, after.cursors, after.consumptions⟩
      · intro writable
        have rows := (rows_write_iff good ordered).2 writable
        refine ⟨fun stamp before => ?_, rows.1, good.ordered, rows.2.1, rows.2.2⟩
        exact @accounted_endGroup ρ state ((state.persist entries).endGroup flush ⟨entries :: rest, failed⟩ rest []) flush entries failed
          [] rest flying rfl rfl (fun _ member => List.mem_append_left _ member) rfl
          (fun entry member => Or.inr (Or.inr (Or.inl ⟨entry, List.mem_append_right _ member, rfl⟩))) stamp (good.accounted stamp before)
    · exact inv_endGroup inv flying rfl rfl rfl inv.late ordered_nil fun _ member => by cases member
  · refine Exact.unchanged inv good (step_idle group true).1 fun flight flying entries head => ?_
    obtain ⟨rest, groups⟩ := List.head?_eq_some_iff.1 head
    exact absurd ⟨entries, rest, flight.failed, by rw [flying, ← groups]⟩ group

theorem exact_failed (inv : state.AuditInv) (good : state.AuditGood) {event : AuditEvent ρ}
    {rest late : List (List (AuditEntry ρ))}
    (flying : state.flights flush = some ⟨entries :: rest, failed⟩)
    (stepped : state.step time event = { state.endGroup flush ⟨entries :: rest, failed⟩ rest more with late := late })
    (sound : state.AuditSound event) (lateOrdered : ∀ group ∈ late, Ordered group) (moreOrdered : Ordered more)
    (kept : ∀ entry ∈ entries, ∃ new ∈ more, new.stamp = entry.stamp)
    (moved : ∀ entry ∈ more, ∃ old ∈ entries, old.stamp = entry.stamp ∧ old.kind = entry.kind) : Exact time state event := by
  unfold Exact
  rw [stepped]
  constructor
  · refine iff_of_true ⟨fun stamp before => ?_, good.once, good.ordered, good.cursors, good.consumptions⟩ sound
    refine @accounted_endGroup ρ state { state.endGroup flush ⟨entries :: rest, failed⟩ rest more with late := late } flush entries failed
      more rest flying rfl rfl (fun _ member => member) rfl (fun entry member => ?_) stamp (good.accounted stamp before)
    obtain ⟨new, newMember, same⟩ := kept entry member
    exact Or.inr (Or.inl ⟨flush, _, Function.update_self _ _ _, new,
      List.mem_append_left _ (List.mem_append_right _ newMember), same⟩)
  · exact inv_endGroup inv flying rfl rfl rfl lateOrdered moreOrdered moved

theorem kept_retried (entries : List (AuditEntry ρ)) : ∀ entry ∈ entries, ∃ new ∈ entries.map AuditEntry.retried, new.stamp = entry.stamp :=
  fun entry member => ⟨entry.retried, List.mem_map_of_mem member, rfl⟩

theorem moved_retried (entries : List (AuditEntry ρ)) : ∀ entry ∈ entries.map AuditEntry.retried,
    ∃ old ∈ entries, old.stamp = entry.stamp ∧ old.kind = entry.kind := by
  intro entry member
  obtain ⟨old, oldMember, rfl⟩ := List.mem_map.1 member
  exact ⟨old, oldMember, rfl, rfl⟩

theorem exact_groupFails (inv : state.AuditInv) (good : state.AuditGood) (flush : ℕ) (infra : Bool) :
    Exact time state (.groupFails flush infra) := by
  by_cases group : ∃ entries rest failed, state.flights flush = some ⟨entries :: rest, failed⟩
  · obtain ⟨entries, rest, failed, flying⟩ := group
    have ordered := ordered_next inv flying
    have stepped : state.step time (.groupFails flush infra) = { state.endGroup flush ⟨entries :: rest, failed⟩ rest
        (if infra then entries else entries.map AuditEntry.retried) with late := state.late } := by
      unfold AuditState.step
      simp only [flying]
      rfl
    cases infra with
    | true =>
      exact exact_failed inv good flying stepped trivial inv.late ordered (fun entry member => ⟨entry, member, rfl⟩)
        fun entry member => ⟨entry, member, rfl, rfl⟩
    | false =>
      exact exact_failed inv good flying stepped trivial inv.late ordered.map_retried (kept_retried entries) (moved_retried entries)
  · exact Exact.unchanged inv good (step_idle group infra).2.1 trivial

theorem exact_groupCancelled (inv : state.AuditInv) (good : state.AuditGood) (flush : ℕ) :
    Exact time state (.groupCancelled flush) := by
  by_cases group : ∃ entries rest failed, state.flights flush = some ⟨entries :: rest, failed⟩
  · obtain ⟨entries, rest, failed, flying⟩ := group
    have ordered := ordered_next inv flying
    have stepped : state.step time (.groupCancelled flush) = { state.endGroup flush ⟨entries :: rest, failed⟩ rest
        (entries.map AuditEntry.retried) with late := state.late ++ [entries] } := by
      unfold AuditState.step
      simp only [flying]
    refine exact_failed inv good flying stepped trivial (fun group member => ?_) ordered.map_retried (kept_retried entries)
      (moved_retried entries)
    rcases List.mem_append.1 member with old | new
    · exact inv.late group old
    · rw [List.mem_singleton.1 new]
      exact ordered
  · exact Exact.unchanged inv good (step_idle group true).2.2 trivial

theorem exact_lateCommits (inv : state.AuditInv) (good : state.AuditGood) (group : ℕ) : Exact time state (.lateCommits group) := by
  cases found : state.late[group]? with
  | none =>
    have same : state.step time (.lateCommits group) = state := by
      unfold AuditState.step
      simp only [found]
    exact Exact.unchanged inv good same fun entries member => by
      rw [found] at member
      cases member
  | some entries =>
    have stepped : state.step time (.lateCommits group) = { state.persist entries with late := state.late.eraseIdx group } := by
      unfold AuditState.step
      simp only [found]
    have ordered : Ordered entries := inv.late entries (List.mem_of_getElem? found)
    have sound : state.AuditSound (.lateCommits group) ↔ state.Writable entries := by
      constructor
      · intro sound
        exact sound entries found
      · intro writable others member
        rw [found] at member
        rw [← Option.some.inj member]
        exact writable
    unfold Exact
    rw [stepped, sound]
    constructor
    · constructor
      · intro after
        exact (rows_write_iff good ordered).1 ⟨after.once, after.cursors, after.consumptions⟩
      · intro writable
        have rows := (rows_write_iff good ordered).2 writable
        refine ⟨fun stamp before => ?_, rows.1, good.ordered, rows.2.1, rows.2.2⟩
        exact (good.accounted stamp before).move (fun entry member => accounted_buffer member)
          (fun flush flight flying entry member => Or.inr (Or.inl ⟨flush, flight, flying, entry, member, rfl⟩))
          (fun _ member => List.mem_append_left _ member) fun _ member => member
    · exact { inv with late := fun others member => inv.late others (List.mem_of_mem_eraseIdx member) }

theorem exact_lateFails (inv : state.AuditInv) (good : state.AuditGood) (group : ℕ) : Exact time state (.lateFails group) := by
  constructor
  · refine iff_of_true ⟨fun stamp before => ?_, good.once, good.ordered, good.cursors, good.consumptions⟩ trivial
    exact (good.accounted stamp before).move (fun entry member => accounted_buffer member)
      (fun flush flight flying entry member => Or.inr (Or.inl ⟨flush, flight, flying, entry, member, rfl⟩))
      (fun _ member => member) fun _ member => member
  · exact { inv with late := fun others member => inv.late others (List.mem_of_mem_eraseIdx member) }

theorem exact_requeue (inv : state.AuditInv) (good : state.AuditGood) (flush : ℕ) (below : state.BelowCap (.requeue flush)) :
    Exact time state (.requeue flush) := by
  cases flying : state.flights flush with
  | none =>
    have same : state.step time (.requeue flush) = state := by
      unfold AuditState.step
      simp only [flying]
    exact Exact.unchanged inv good same fun flight member => by
      rw [flying] at member
      cases member
  | some flight =>
    obtain ⟨groups, failed⟩ := flight
    cases groups with
    | cons entries rest =>
      have same : state.step time (.requeue flush) = state := by
        unfold AuditState.step
        simp only [flying]
      exact Exact.unchanged inv good same fun flight member empty => by
        rw [flying] at member
        rw [← Option.some.inj member] at empty
        cases empty
    | nil =>
      have room : (failed.filter canRetry).take (auditBufferMaxSize - state.buffer.length) = failed.filter canRetry := by
        have bound := below _ flying
        simp only at bound
        exact List.take_of_length_le (by omega)
      have stepped : state.step time (.requeue flush) =
          { state with
            buffer := failed.filter canRetry ++ state.buffer
            flights := Function.update state.flights flush none
            dropped := state.dropped ++ failed.filter fun entry => !canRetry entry } := by
        unfold AuditState.step
        simp only [flying, room]
      have held : Ordered failed := by
        have both := inv.flights flush _ flying
        simpa using both
      have retryOrdered : Ordered (failed.filter canRetry) := held.sublist List.filter_sublist
      have sound : state.AuditSound (.requeue flush) ↔ state.Requeueable failed := by
        constructor
        · intro sound
          exact sound _ flying rfl
        · intro requeueable flight member _
          rw [flying] at member
          rw [← Option.some.inj member]
          exact requeueable
      unfold Exact
      rw [stepped, sound]
      constructor
      · constructor
        · intro after entry member retries waiting waitingMember same
          exact (ordered_append.1 after.ordered).2.2 entry (List.mem_filter.2 ⟨member, retries⟩) waiting waitingMember same
        · intro requeueable
          refine ⟨fun stamp before => ?_, good.once, ?_, good.cursors, good.consumptions⟩
          · refine (good.accounted stamp before).move (fun entry member => accounted_buffer (List.mem_append_right _ member))
              (fun other flight found entry member => ?_) (fun _ member => member) fun _ member => List.mem_append_left _ member
            by_cases same : other = flush
            · rw [same, flying] at found
              rw [← Option.some.inj found, List.flatten_nil, List.append_nil] at member
              cases retries : canRetry entry with
              | true => exact accounted_buffer (List.mem_append_left _ (List.mem_filter.2 ⟨member, retries⟩))
              | false =>
                refine Or.inr (Or.inr (Or.inr ⟨entry, List.mem_append_right _ (List.mem_filter.2 ⟨member,
                  by rw [retries, Bool.not_false]⟩), rfl, ?_⟩))
                have spent := of_decide_eq_false retries
                omega
            · exact Or.inr (Or.inl ⟨other, flight, (Function.update_of_ne same _ _).trans found, entry, member, rfl⟩)
          · refine ordered_append.2 ⟨retryOrdered, good.ordered, fun entry member later laterMember same => ?_⟩
            have parts := List.mem_filter.1 member
            exact requeueable entry parts.1 parts.2 later laterMember same
      · constructor
        · intro other flight found
          rcases flights_update found with ⟨-, impossible⟩ | ⟨-, there⟩
          · cases impossible
          · exact inv.flights other flight there
        · exact inv.late
        · intro entry member
          rcases List.mem_append.1 member with front | back
          · exact inv.flying flush _ flying entry (List.mem_append_left _ (List.mem_filter.1 front).1)
          · exact inv.fresh entry back
        · intro other flight found entry member
          rcases flights_update found with ⟨-, impossible⟩ | ⟨-, there⟩
          · cases impossible
          · exact inv.flying other flight there entry member

theorem step_exact (forward : Monotone time) (inv : state.AuditInv) (good : state.AuditGood) (event : AuditEvent ρ)
    (below : state.BelowCap event) : Exact time state event := by
  cases event with
  | append payload => exact exact_append inv good payload below
  | takeBatch flush => exact exact_takeBatch forward inv good flush
  | groupCommits flush => exact exact_groupCommits inv good flush
  | groupFails flush infra => exact exact_groupFails inv good flush infra
  | groupCancelled flush => exact exact_groupCancelled inv good flush
  | lateCommits group => exact exact_lateCommits inv good group
  | lateFails group => exact exact_lateFails inv good group
  | requeue flush => exact exact_requeue inv good flush below

theorem auditInv_start : AuditInv ({} : AuditState ρ) := by
  constructor
  · intro flush flight found
    cases found
  · intro entries member
    cases member
  · intro entry member
    cases member
  · intro flush flight found
    cases found

theorem auditGood_start : AuditGood ({} : AuditState ρ) := by
  constructor
  · intro stamp before
    exact absurd before (Nat.not_lt_zero stamp)
  · exact List.nodup_nil
  · exact ordered_nil
  · intro entry member
    cases member
  · intro entry member
    cases member

def Waiting (state : AuditState ρ) (entry : AuditEntry ρ) : Prop :=
  entry ∈ state.buffer ∨ ∃ flush flight, state.flights flush = some flight ∧ entry ∈ flight.failed ++ flight.groups.flatten

def KindsApart (first second : List (AuditEntry ρ)) : Prop := ∀ entry ∈ first, ∀ other ∈ second, entry.kind ≠ other.kind

/-- Of each kind, what was persisted comes before what is in the one flush, and that before what is in the buffer. -/
structure Sequenced (state : AuditState ρ) : Prop where
  single : ∀ flush other flight next, state.flights flush = some flight → state.flights other = some next → flush = other
  persisted : ∀ done ∈ state.persisted, ∀ entry, state.Waiting entry → done.kind = entry.kind → done.stamp < entry.stamp
  flying : ∀ flush flight, state.flights flush = some flight → ∀ entry ∈ flight.failed ++ flight.groups.flatten,
    ∀ waiting ∈ state.buffer, entry.kind = waiting.kind → entry.stamp < waiting.stamp
  apart : ∀ flush flight, state.flights flush = some flight → (flight.failed :: flight.groups).Pairwise KindsApart
  checks : ∀ origin ∈ state.database.checks.map CheckRow.origin,
    ∃ entry ∈ state.persisted, entry.kind = .decisionChecks ∧ entry.stamp = origin.1
  past : ∀ done ∈ state.persisted, done.stamp < state.next

theorem sequenced_start : Sequenced ({} : AuditState ρ) := by
  constructor
  · intro flush other flight next found
    cases found
  · intro done member
    cases member
  · intro flush flight found
    cases found
  · intro flush flight found
    cases found
  · intro origin member
    cases member
  · intro done member
    cases member

theorem kindsApart_splitGroups (batch : List (AuditEntry ρ)) : (([] : List (AuditEntry ρ)) :: splitGroups batch).Pairwise KindsApart := by
  refine List.Pairwise.cons (fun _ _ _ impossible => by cases impossible) ?_
  unfold splitGroups
  rw [List.pairwise_map]
  refine List.Pairwise.imp ?_ (by decide : auditGroups.Pairwise fun first second => first ≠ second)
  intro first second different entry member other otherMember same
  have here : entry.kind.group = first := of_decide_eq_true (List.mem_filter.1 member).2
  have there : other.kind.group = second := of_decide_eq_true (List.mem_filter.1 otherMember).2
  rw [same, there] at here
  exact different here.symm

theorem Sequenced.append (sequenced : state.Sequenced) (inv : state.AuditInv) (payload : AuditPayload ρ) :
    Sequenced { state with buffer := state.buffer ++ [⟨state.next, payload, 0⟩], next := state.next + 1 } := by
  refine { sequenced with persisted := ?_, flying := ?_, past := fun done member => (sequenced.past done member).trans (Nat.lt_succ_self _) }
  · rintro done member entry (waiting | flying) same
    · rcases List.mem_append.1 waiting with old | new
      · exact sequenced.persisted done member entry (Or.inl old) same
      · rw [List.mem_singleton.1 new]
        exact sequenced.past done member
    · exact sequenced.persisted done member entry (Or.inr flying) same
  · intro flush flight found entry member waiting waitingMember same
    rcases List.mem_append.1 waitingMember with old | new
    · exact sequenced.flying flush flight found entry member waiting old same
    · rw [List.mem_singleton.1 new]
      exact inv.flying flush flight found entry member

theorem Sequenced.takeBatch (sequenced : state.Sequenced) (ordered : Ordered state.buffer) (time : ℕ → ℕ) (flush : ℕ)
    (idle : ∀ other, state.flights other = none) : Sequenced
      { state with
        buffer := state.buffer.drop auditFlushBatchSize
        flights := Function.update state.flights flush
          (some ⟨splitGroups ((state.buffer.take auditFlushBatchSize).insertionSort (BatchLe time)), []⟩) } := by
  have only : ∀ other flight, Function.update state.flights flush
      (some ⟨splitGroups ((state.buffer.take auditFlushBatchSize).insertionSort (BatchLe time)), []⟩) other = some flight →
      other = flush ∧ flight = ⟨splitGroups ((state.buffer.take auditFlushBatchSize).insertionSort (BatchLe time)), []⟩ := by
    intro other flight found
    rcases flights_update found with ⟨here, same⟩ | ⟨-, there⟩
    · exact ⟨here, (Option.some.inj same).symm⟩
    · rw [idle other] at there
      cases there
  have taken : ∀ entry, entry ∈ ([] : List (AuditEntry ρ)) ++
      (splitGroups ((state.buffer.take auditFlushBatchSize).insertionSort (BatchLe time))).flatten →
      entry ∈ state.buffer.take auditFlushBatchSize := by
    intro entry member
    rw [List.nil_append, mem_splitGroups] at member
    exact (List.mem_insertionSort _).1 member
  have parts : Ordered (state.buffer.take auditFlushBatchSize ++ state.buffer.drop auditFlushBatchSize) := by
    rw [List.take_append_drop]
    exact ordered
  refine { sequenced with single := ?_, persisted := ?_, flying := ?_, apart := ?_ }
  · intro first second flight next here there
    exact (only first flight here).1.trans (only second next there).1.symm
  · rintro done member entry (waiting | ⟨other, flight, found, inFlight⟩) same
    · exact sequenced.persisted done member entry (Or.inl (List.mem_of_mem_drop waiting)) same
    · rw [(only other flight found).2] at inFlight
      exact sequenced.persisted done member entry (Or.inl (List.mem_of_mem_take (taken entry inFlight))) same
  · intro other flight found entry member waiting waitingMember same
    rw [(only other flight found).2] at member
    exact (ordered_append.1 parts).2.2 entry (taken entry member) waiting waitingMember same
  · intro other flight found
    rw [(only other flight found).2]
    exact kindsApart_splitGroups _

theorem Sequenced.endGroup {state after : AuditState ρ} (sequenced : state.Sequenced)
    (flying : state.flights flush = some ⟨entries :: rest, failed⟩)
    (flights : after.flights = Function.update state.flights flush (some ⟨rest, failed ++ more⟩)) (buffer : after.buffer = state.buffer)
    (moved : ∀ entry ∈ more, ∃ old ∈ entries, old.stamp = entry.stamp ∧ old.kind = entry.kind)
    (persisted : ∀ done ∈ after.persisted, done ∈ state.persisted ∨ done ∈ entries ∧ more = [])
    (checks : ∀ origin ∈ after.database.checks.map CheckRow.origin,
      ∃ entry ∈ after.persisted, entry.kind = .decisionChecks ∧ entry.stamp = origin.1)
    (past : ∀ done ∈ after.persisted, done.stamp < after.next) : after.Sequenced := by
  have only : ∀ other flight, after.flights other = some flight → other = flush ∧ flight = ⟨rest, failed ++ more⟩ := by
    intro other flight found
    rw [flights] at found
    rcases flights_update found with ⟨here, same⟩ | ⟨different, there⟩
    · exact ⟨here, (Option.some.inj same).symm⟩
    · exact absurd (sequenced.single other flush flight _ there flying) different
  have before : ∀ entry ∈ (failed ++ more) ++ rest.flatten, ∃ old ∈ failed ++ (entries :: rest).flatten,
      old.stamp = entry.stamp ∧ old.kind = entry.kind := by
    intro entry member
    rw [List.flatten_cons]
    rcases List.mem_append.1 member with front | later
    · rcases List.mem_append.1 front with early | new
      · exact ⟨entry, List.mem_append_left _ early, rfl, rfl⟩
      · obtain ⟨old, oldMember, same⟩ := moved entry new
        exact ⟨old, List.mem_append_right _ (List.mem_append_left _ oldMember), same⟩
    · exact ⟨entry, List.mem_append_right _ (List.mem_append_right _ later), rfl, rfl⟩
  obtain ⟨failedApart, groupsApart⟩ := List.pairwise_cons.1 (sequenced.apart flush _ flying)
  obtain ⟨entriesApart, restApart⟩ := List.pairwise_cons.1 groupsApart
  refine ⟨fun first second flight next here there => (only first flight here).1.trans (only second next there).1.symm, ?_, ?_, ?_, checks, past⟩
  · rintro done member entry waiting same
    rcases persisted done member with old | ⟨new, none⟩
    · rcases waiting with inBuffer | ⟨other, flight, found, inFlight⟩
      · exact sequenced.persisted done old entry (Or.inl (buffer ▸ inBuffer)) same
      · rw [(only other flight found).2] at inFlight
        obtain ⟨early, earlyMember, stamp, kind⟩ := before entry inFlight
        rw [← stamp]
        exact sequenced.persisted done old early (Or.inr ⟨flush, _, flying, earlyMember⟩) (same.trans kind.symm)
    · rcases waiting with inBuffer | ⟨other, flight, found, inFlight⟩
      · rw [buffer] at inBuffer
        exact sequenced.flying flush _ flying done (List.mem_append_right _ (List.mem_append_left _ new)) entry inBuffer same
      · rw [(only other flight found).2, none, List.append_nil] at inFlight
        rcases List.mem_append.1 inFlight with early | later
        · exact absurd same.symm (failedApart entries List.mem_cons_self entry early done new)
        · obtain ⟨group, groupMember, inGroup⟩ := List.mem_flatten.1 later
          exact absurd same (entriesApart group groupMember done new entry inGroup)
  · intro other flight found entry member waiting waitingMember same
    rw [(only other flight found).2] at member
    rw [buffer] at waitingMember
    obtain ⟨early, earlyMember, stamp, kind⟩ := before entry member
    rw [← stamp]
    exact sequenced.flying flush _ flying early earlyMember waiting waitingMember (kind.trans same)
  · intro other flight found
    rw [(only other flight found).2]
    refine List.Pairwise.cons (fun group groupMember entry member other inGroup => ?_) restApart
    rcases List.mem_append.1 member with early | new
    · exact failedApart group (List.mem_cons_of_mem _ groupMember) entry early other inGroup
    · obtain ⟨old, oldMember, -, kind⟩ := moved entry new
      rw [← kind]
      exact entriesApart group groupMember old oldMember other inGroup

theorem Sequenced.requeue (sequenced : state.Sequenced) {failed retry : List (AuditEntry ρ)}
    (flying : state.flights flush = some ⟨[], failed⟩) (among : ∀ entry ∈ retry, entry ∈ failed) (dropped : List (AuditEntry ρ)) :
    Sequenced { state with buffer := retry ++ state.buffer, flights := Function.update state.flights flush none, dropped := dropped } := by
  have gone : ∀ other flight, Function.update state.flights flush none other ≠ some flight := by
    intro other flight found
    rcases flights_update found with ⟨-, impossible⟩ | ⟨different, there⟩
    · cases impossible
    · exact absurd (sequenced.single other flush flight _ there flying) different
  have waits : ∀ entry ∈ retry, state.Waiting entry := fun entry member =>
    Or.inr ⟨flush, _, flying, List.mem_append_left _ (among entry member)⟩
  refine { sequenced with single := ?_, persisted := ?_, flying := ?_, apart := ?_ }
  · intro first second flight next here
    exact absurd here (gone first flight)
  · rintro done member entry (waiting | ⟨other, flight, found, -⟩) same
    · rcases List.mem_append.1 waiting with back | held
      · exact sequenced.persisted done member entry (waits entry back) same
      · exact sequenced.persisted done member entry (Or.inl held) same
    · exact absurd found (gone other flight)
  · intro other flight found
    exact absurd found (gone other flight)
  · intro other flight found
    exact absurd found (gone other flight)

theorem winsLast {κ : Type} [DecidableEq κ] {key : AuditEntry ρ → Option κ} {kind : AuditKind}
    (keyed : ∀ entry name, key entry = some name → entry.kind = kind) {persisted entries : List (AuditEntry ρ)} (ordered : Ordered entries)
    (before : ∀ done ∈ persisted, ∀ entry ∈ entries, done.kind = entry.kind → done.stamp < entry.stamp) : WinsLast key persisted entries := by
  intro entry _ name _ winner won other member same
  have found := lastFor_some won
  rcases List.mem_append.1 member with old | new
  · exact (before other old winner found.1 ((keyed other name same).trans (keyed winner name found.2).symm)).le
  · exact lastFor_latest keyed ordered won new same

theorem Sequenced.writable (sequenced : state.Sequenced) {entries : List (AuditEntry ρ)} (ordered : Ordered entries)
    (waiting : ∀ entry ∈ entries, state.Waiting entry) : state.Writable entries := by
  have before : ∀ done ∈ state.persisted, ∀ entry ∈ entries, done.kind = entry.kind → done.stamp < entry.stamp :=
    fun done member entry inEntries => sequenced.persisted done member entry (waiting entry inEntries)
  refine ⟨fun row member stands => ?_, winsLast kind_of_cursorKey ordered before, winsLast kind_of_consumptionKey ordered before⟩
  obtain ⟨entry, inEntries, made⟩ := List.mem_flatMap.1 member
  have origin := origin_checkRows _ entry row.origin (List.mem_map_of_mem made)
  obtain ⟨done, inPersisted, kind, stamp⟩ := sequenced.checks row.origin stands
  have less := before done inPersisted entry inEntries (kind.trans origin.2.symm)
  omega

theorem Sequenced.sound (sequenced : state.Sequenced) (inv : state.AuditInv) {event : AuditEvent ρ}
    (calm : state.Calm event) : state.AuditSound event := by
  cases event with
  | groupCommits flush =>
    rintro ⟨groups, failed⟩ flying entries head
    obtain ⟨rest, rfl⟩ := List.head?_eq_some_iff.1 head
    refine sequenced.writable (ordered_next inv flying) fun entry member => Or.inr ⟨flush, _, flying, ?_⟩
    exact List.mem_append_right _ (List.mem_append_left _ member)
  | lateCommits group =>
    intro entries member
    rw [show state.late[group]? = none from calm] at member
    cases member
  | requeue flush =>
    intro flight flying _ entry member _ waiting waitingMember same
    exact sequenced.flying flush flight flying entry (List.mem_append_left _ member) waiting waitingMember same
  | append payload => trivial
  | takeBatch flush => trivial
  | groupFails flush infra => trivial
  | groupCancelled flush => trivial
  | lateFails group => trivial

theorem checks_write (sequenced : state.Sequenced) (entries : List (AuditEntry ρ)) :
    ∀ origin ∈ (state.database.write entries).checks.map CheckRow.origin,
      ∃ entry ∈ state.persisted ++ entries, entry.kind = .decisionChecks ∧ entry.stamp = origin.1 := by
  intro origin member
  have rows : (state.database.write entries).checks = state.database.checks ++
    entries.flatMap (AuditEntry.checkRows (state.database.write entries).decisions) := rfl
  rw [rows, List.map_append] at member
  rcases List.mem_append.1 member with old | new
  · obtain ⟨entry, inPersisted, same⟩ := sequenced.checks origin old
    exact ⟨entry, List.mem_append_left _ inPersisted, same⟩
  · rw [List.map_flatMap] at new
    obtain ⟨entry, inEntries, made⟩ := List.mem_flatMap.1 new
    have made := origin_checkRows _ entry origin made
    exact ⟨entry, List.mem_append_right _ inEntries, made.2, made.1.symm⟩

theorem Sequenced.step (sequenced : state.Sequenced) (inv : state.AuditInv) (ordered : Ordered state.buffer)
    {event : AuditEvent ρ} (below : state.BelowCap event) (calm : state.Calm event) : (state.step time event).Sequenced := by
  cases event with
  | append payload =>
    rw [step_append below]
    exact sequenced.append inv payload
  | takeBatch flush =>
    unfold AuditState.step
    simp only [show state.flights flush = none from calm flush]
    by_cases empty : state.buffer.isEmpty = true
    · rw [if_pos empty]
      exact sequenced
    · rw [if_neg empty]
      exact sequenced.takeBatch ordered time flush calm
  | groupCommits flush =>
    by_cases group : ∃ entries rest failed, state.flights flush = some ⟨entries :: rest, failed⟩
    · obtain ⟨entries, rest, failed, flying⟩ := group
      have stepped : state.step time (.groupCommits flush) = (state.persist entries).endGroup flush ⟨entries :: rest, failed⟩ rest [] := by
        unfold AuditState.step
        simp only [flying]
      have inside : ∀ entry ∈ entries, entry ∈ failed ++ (entries :: rest).flatten := fun entry member =>
        List.mem_append_right _ (List.mem_append_left _ member)
      rw [stepped]
      refine sequenced.endGroup flying rfl rfl (fun _ impossible => by cases impossible) (fun done member => ?_)
        (checks_write sequenced entries) (fun done member => ?_)
      · exact (List.mem_append.1 member).imp_right fun new => ⟨new, rfl⟩
      · rcases List.mem_append.1 member with old | new
        · exact sequenced.past done old
        · exact inv.flying flush _ flying done (inside done new)
    · rw [(step_idle group true).1]
      exact sequenced
  | groupFails flush infra =>
    by_cases group : ∃ entries rest failed, state.flights flush = some ⟨entries :: rest, failed⟩
    · obtain ⟨entries, rest, failed, flying⟩ := group
      have stepped : state.step time (.groupFails flush infra) = state.endGroup flush ⟨entries :: rest, failed⟩ rest
          (if infra then entries else entries.map AuditEntry.retried) := by
        unfold AuditState.step
        simp only [flying]
      rw [stepped]
      refine sequenced.endGroup flying rfl rfl ?_ (fun done member => Or.inl member) sequenced.checks sequenced.past
      cases infra with
      | true => exact fun entry member => ⟨entry, member, rfl, rfl⟩
      | false => exact moved_retried entries
    · rw [(step_idle group infra).2.1]
      exact sequenced
  | groupCancelled flush =>
    by_cases group : ∃ entries rest failed, state.flights flush = some ⟨entries :: rest, failed⟩
    · obtain ⟨entries, rest, failed, flying⟩ := group
      have stepped : state.step time (.groupCancelled flush) = { state.endGroup flush ⟨entries :: rest, failed⟩ rest
          (entries.map AuditEntry.retried) with late := state.late ++ [entries] } := by
        unfold AuditState.step
        simp only [flying]
      rw [stepped]
      exact sequenced.endGroup flying rfl rfl (moved_retried entries) (fun done member => Or.inl member) sequenced.checks sequenced.past
    · rw [(step_idle group true).2.2]
      exact sequenced
  | lateCommits group =>
    unfold AuditState.step
    simp only [show state.late[group]? = none from calm]
    exact sequenced
  | lateFails group => exact { sequenced with }
  | requeue flush =>
    unfold AuditState.step
    dsimp only
    split
    · rename_i failed flying
      refine sequenced.requeue flying (fun entry member => ?_) _
      exact (List.mem_filter.1 (List.mem_of_mem_take member)).1
    · exact sequenced

end AuditState

/-- While the buffer stays below its cap, a run keeps every promise exactly when each transaction that commits may write its
group and each requeue goes in front of newer entries only. -/
theorem audit_good_iff (time : ℕ → ℕ) (forward : Monotone time) (events : List (AuditEvent ρ))
    (below : Runs.Meets (AuditState.step time) AuditState.BelowCap {} events) :
    Runs.Always (AuditState.step time) AuditState.AuditGood {} events ↔
      Runs.Meets (AuditState.step time) AuditState.AuditSound {} events := by
  refine @Runs.always_iff_meets_within _ _ (AuditState.step time) AuditState.BelowCap AuditState.AuditSound
    (fun state => state.AuditInv ∧ state.AuditGood) AuditState.AuditGood ?_ ?_ {} events
    ⟨AuditState.auditInv_start, AuditState.auditGood_start⟩ AuditState.auditGood_start below
  · intro state event held within sound
    have exact_ := AuditState.step_exact forward held.1 held.2 event within
    exact ⟨exact_.2, exact_.1.2 sound⟩
  · intro state event held within good
    exact (AuditState.step_exact forward held.1 good event within).1

end

/-- A decision with its checks commits, the cursor beside it fails once and is put back in front of a newer one, and the second flush
commits both. -/
def retriedCursor : List (AuditEvent ℕ) :=
  [.append (.decision "d" 1), .append (.decisionChecks "d" [2]), .append (.cursor "t" 5), .takeBatch 0, .groupCommits 0, .groupCommits 0,
    .groupFails 0 false, .append (.cursor "t" 6), .groupCommits 0, .groupCommits 0, .requeue 0, .takeBatch 0, .groupCommits 0, .groupCommits 0,
    .groupCommits 0, .groupCommits 0, .groupCommits 0, .requeue 0]

/-- The group of a decision and its check commits although the wait for it was cancelled, and is flushed again. -/
def cancelledChecks : List (AuditEvent ℕ) :=
  [.append (.decision "d" 1), .append (.decisionChecks "d" [2]), .takeBatch 0, .groupCancelled 0, .lateCommits 0, .groupCommits 0,
    .groupCommits 0, .groupCommits 0, .groupCommits 0, .requeue 0, .takeBatch 0, .groupCommits 0]

end Callisto.Hot
