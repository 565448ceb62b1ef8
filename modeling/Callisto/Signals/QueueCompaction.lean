import Callisto.Signals.Queue

/-! What compactions leave of a lane, and when the consumer sees them. -/

namespace Callisto.Signals

open Callisto.Library

theorem SignalIds.ext {first second : SignalIds} (same : first.ids = second.ids) : first = second := by
  cases first
  cases second
  cases same
  rfl

theorem add_plain {known : SignalIds} {id : String} (plain : Ws.strip id = id ∧ id ≠ "") :
    (known.add id).ids = if id ∈ known.ids then known.ids else known.ids ++ [id] := by
  unfold SignalIds.add
  by_cases old : id ∈ known.ids
  · rw [dif_neg (fun fresh => fresh.2 (plain.1.symm ▸ old)), if_pos old]
  · have fresh : Ws.strip id ≠ "" ∧ Ws.strip id ∉ known.ids := by
      rw [plain.1]
      exact ⟨plain.2, old⟩
    rw [dif_pos fresh, if_neg old]
    show known.ids ++ [Ws.strip id] = _
    rw [plain.1]

theorem mem_add {known : SignalIds} {id other : String} (plain : Ws.strip id = id ∧ id ≠ "") :
    other ∈ (known.add id).ids ↔ other ∈ known.ids ∨ other = id := by
  rw [add_plain plain]
  split
  case isTrue old =>
    constructor
    · exact Or.inl
    · intro either
      cases either with
      | inl member => exact member
      | inr same => exact same ▸ old
  case isFalse fresh => rw [List.mem_append, List.mem_singleton]

def SignalIds.addAll (known new : SignalIds) : SignalIds := new.ids.foldl SignalIds.add known

theorem mem_addAll (known new : SignalIds) (id : String) : id ∈ (known.addAll new).ids ↔ id ∈ known.ids ∨ id ∈ new.ids := by
  have search : ∀ (ids : List String) (known : SignalIds), (∀ id ∈ ids, Ws.strip id = id ∧ id ≠ "") →
      (id ∈ (ids.foldl SignalIds.add known).ids ↔ id ∈ known.ids ∨ id ∈ ids) := by
    intro ids
    induction ids with
    | nil => intro known _; simp
    | cons head rest ih =>
      intro known plain
      rw [List.foldl_cons, ih _ fun other member => plain other (List.mem_cons_of_mem _ member),
        mem_add (plain head List.mem_cons_self), List.mem_cons, or_assoc]
  exact search new.ids known new.plain

theorem noSignals_addAll (ids : SignalIds) : noSignals.addAll ids = ids := by
  have search : ∀ (rest : List String) (known : SignalIds), (∀ id ∈ rest, Ws.strip id = id ∧ id ≠ "") →
      (known.ids ++ rest).Nodup → (rest.foldl SignalIds.add known).ids = known.ids ++ rest := by
    intro rest
    induction rest with
    | nil => intro known _ _; rw [List.append_nil]; rfl
    | cons head rest ih =>
      intro known plain nodup
      have fresh : head ∉ known.ids := by
        intro old
        exact (List.nodup_append.1 nodup).2.2 head old head List.mem_cons_self rfl
      have added : (known.add head).ids = known.ids ++ [head] := by
        rw [add_plain (plain head List.mem_cons_self), if_neg fresh]
      have sameIds : (known.add head).ids ++ rest = known.ids ++ head :: rest := by
        rw [added, List.append_assoc, List.singleton_append]
      have apart : ((known.add head).ids ++ rest).Nodup := by
        rw [sameIds]
        exact nodup
      rw [List.foldl_cons, ih _ (fun other member => plain other (List.mem_cons_of_mem _ member)) apart, sameIds]
  exact SignalIds.ext (search ids.ids noSignals ids.plain ids.nodup)

section Views

variable {σ : Type} {batches : List (SignalBatch σ)} {id : String}

def mergeAll : List (SignalBatch σ) → Option (SignalBatch σ)
  | [] => none
  | batch :: rest => some (rest.foldl mergeBatch batch)

theorem mergeAll_append (earlier later : List (SignalBatch σ)) :
    mergeAll ((mergeAll earlier).toList ++ later) = mergeAll (earlier ++ later) := by
  cases earlier with
  | nil => rfl
  | cons batch rest =>
    show some (later.foldl mergeBatch (rest.foldl mergeBatch batch)) = some ((rest ++ later).foldl mergeBatch batch)
    rw [List.foldl_append]

def takeAll (batches : List (SignalBatch σ)) : SignalIds × Dict String σ := batches.foldl takeBatch (noSignals, Dict.empty)

theorem takeSignal_ids (snapshots : Dict String σ) (taken : SignalIds × Dict String σ) (plain : Ws.strip id = id ∧ id ≠ "") :
    (takeSignal snapshots taken id).1 = taken.1.add id := by
  unfold takeSignal
  rw [plain.1]
  by_cases old : id ∈ taken.1.ids
  · rw [if_pos (Or.inr old)]
    apply SignalIds.ext
    rw [add_plain plain, if_pos old]
  · rw [if_neg (fun either => either.elim plain.2 old)]

theorem takeSignal_snapshot (snapshots : Dict String σ) (taken : SignalIds × Dict String σ)
    (plain : Ws.strip id = id ∧ id ≠ "") (other : String) : (takeSignal snapshots taken id).2.get? other =
      if id = other ∧ id ∉ taken.1.ids then (snapshots.get? id).or (taken.2.get? other) else taken.2.get? other := by
  unfold takeSignal
  rw [plain.1]
  by_cases old : id ∈ taken.1.ids
  · rw [if_pos (Or.inr old), if_neg (fun both => both.2 old)]
  · rw [if_neg (fun either => either.elim plain.2 old)]
    cases snapshots.get? id with
    | none => simp
    | some snapshot =>
      show (taken.2.set id snapshot).get? other = _
      rw [Dict.get?_set]
      by_cases same : id = other
      · rw [if_pos same, if_pos ⟨same, old⟩]
        rfl
      · rw [if_neg same, if_neg (fun both => same both.1)]

theorem takeBatch_ids (taken : SignalIds × Dict String σ) (batch : SignalBatch σ) :
    (takeBatch taken batch).1 = taken.1.addAll batch.signalIds := by
  have search : ∀ (ids : List String) (taken : SignalIds × Dict String σ), (∀ id ∈ ids, Ws.strip id = id ∧ id ≠ "") →
      (ids.foldl (takeSignal batch.signalSnapshots) taken).1 = ids.foldl SignalIds.add taken.1 := by
    intro ids
    induction ids with
    | nil => intro taken _; rfl
    | cons head rest ih =>
      intro taken plain
      rw [List.foldl_cons, ih _ fun other member => plain other (List.mem_cons_of_mem _ member),
        takeSignal_ids _ _ (plain head List.mem_cons_self), List.foldl_cons]
  exact search batch.signalIds.ids taken batch.signalIds.plain

theorem takeBatch_snapshot (taken : SignalIds × Dict String σ) (batch : SignalBatch σ) (id : String) :
    (takeBatch taken batch).2.get? id =
      if id ∈ batch.signalIds.ids ∧ id ∉ taken.1.ids then (batch.signalSnapshots.get? id).or (taken.2.get? id) else taken.2.get? id := by
  have search : ∀ (ids : List String) (taken : SignalIds × Dict String σ), (∀ id ∈ ids, Ws.strip id = id ∧ id ≠ "") → ids.Nodup →
      (ids.foldl (takeSignal batch.signalSnapshots) taken).2.get? id =
        if id ∈ ids ∧ id ∉ taken.1.ids then (batch.signalSnapshots.get? id).or (taken.2.get? id) else taken.2.get? id := by
    intro ids
    induction ids with
    | nil => intro taken _ _; simp
    | cons head rest ih =>
      intro taken plain nodup
      have own := plain head List.mem_cons_self
      obtain ⟨fresh, nodupRest⟩ := List.nodup_cons.1 nodup
      rw [List.foldl_cons, ih _ (fun other member => plain other (List.mem_cons_of_mem _ member)) nodupRest,
        takeSignal_ids _ _ own, takeSignal_snapshot _ _ own]
      by_cases same : head = id
      · subst same
        rw [if_neg (fun both => fresh both.1)]
        simp
      · have others : id ∉ (taken.1.add head).ids ↔ id ∉ taken.1.ids := by
          rw [mem_add own]
          simp [Ne.symm same]
        simp [same, others, Ne.symm same]
  exact search batch.signalIds.ids taken batch.signalIds.plain batch.signalIds.nodup

def firstSnapshot (id : String) : List (SignalBatch σ) → Option σ
  | [] => none
  | batch :: rest => if id ∈ batch.signalIds.ids then batch.signalSnapshots.get? id else firstSnapshot id rest

def lastSnapshot (id : String) : List (SignalBatch σ) → Option σ
  | [] => none
  | batch :: rest => (lastSnapshot id rest).or (batch.signalSnapshots.get? id)

def Names (id : String) (batches : List (SignalBatch σ)) : Prop := ∃ batch ∈ batches, id ∈ batch.signalIds.ids

theorem takeAll_spec (batches : List (SignalBatch σ)) (taken : SignalIds × Dict String σ) (id : String) :
    (id ∈ (batches.foldl takeBatch taken).1.ids ↔ id ∈ taken.1.ids ∨ Names id batches) ∧
      ((id ∉ taken.1.ids → taken.2.get? id = none) → (batches.foldl takeBatch taken).2.get? id =
        if id ∈ taken.1.ids then taken.2.get? id else firstSnapshot id batches) := by
  induction batches generalizing taken with
  | nil =>
    constructor
    · simp [Names]
    · intro absent
      by_cases old : id ∈ taken.1.ids
      · rw [if_pos old, List.foldl_nil]
      · rw [if_neg old, List.foldl_nil, absent old]
        rfl
  | cons batch rest ih =>
    have named : id ∈ (takeBatch taken batch).1.ids ↔ id ∈ taken.1.ids ∨ id ∈ batch.signalIds.ids := by
      rw [takeBatch_ids, mem_addAll]
    obtain ⟨members, snapshots⟩ := ih (takeBatch taken batch)
    constructor
    · rw [List.foldl_cons, members, named]
      simp [Names, or_assoc]
    · intro absent
      have stillAbsent : id ∉ (takeBatch taken batch).1.ids → (takeBatch taken batch).2.get? id = none := by
        intro new
        rw [named, not_or] at new
        rw [takeBatch_snapshot, if_neg (fun both => new.2 both.1), absent new.1]
      rw [List.foldl_cons, snapshots stillAbsent, takeBatch_snapshot]
      by_cases old : id ∈ taken.1.ids
      · rw [if_pos (named.2 (Or.inl old)), if_neg (fun both => both.2 old), if_pos old]
      · by_cases new : id ∈ batch.signalIds.ids
        · rw [if_pos (named.2 (Or.inr new)), if_pos ⟨new, old⟩, if_neg old, absent old, Option.or_none, firstSnapshot, if_pos new]
        · rw [if_neg (fun member => (named.1 member).elim old new), if_neg old, firstSnapshot, if_neg new]

theorem takeAll_snapshot (batches : List (SignalBatch σ)) (id : String) : (takeAll batches).2.get? id = firstSnapshot id batches := by
  rw [takeAll, (takeAll_spec batches (noSignals, Dict.empty) id).2 fun _ => rfl]
  exact if_neg List.not_mem_nil

theorem mem_takeAll (batches : List (SignalBatch σ)) (id : String) : id ∈ (takeAll batches).1.ids ↔ Names id batches := by
  rw [takeAll, (takeAll_spec batches (noSignals, Dict.empty) id).1]
  exact or_iff_right List.not_mem_nil

theorem takeAll_ids (batches : List (SignalBatch σ)) :
    (takeAll batches).1 = batches.foldl (fun known batch => known.addAll batch.signalIds) noSignals := by
  have search : ∀ (batches : List (SignalBatch σ)) (taken : SignalIds × Dict String σ),
      (batches.foldl takeBatch taken).1 = batches.foldl (fun known batch => known.addAll batch.signalIds) taken.1 := by
    intro batches
    induction batches with
    | nil => intro taken; rfl
    | cons batch rest ih =>
      intro taken
      rw [List.foldl_cons, ih, takeBatch_ids, List.foldl_cons]
  exact search batches _

theorem mergeAll_ids {merged : SignalBatch σ} (all : mergeAll batches = some merged) :
    merged.signalIds = (takeAll batches).1 := by
  have search : ∀ (rest : List (SignalBatch σ)) (batch : SignalBatch σ),
      (rest.foldl mergeBatch batch).signalIds = rest.foldl (fun known batch => known.addAll batch.signalIds) batch.signalIds := by
    intro rest
    induction rest with
    | nil => intro batch; rfl
    | cons next rest ih =>
      intro batch
      rw [List.foldl_cons, ih, List.foldl_cons]
      rfl
  cases batches with
  | nil => cases all
  | cons batch rest =>
    cases all
    rw [search, takeAll_ids, List.foldl_cons, noSignals_addAll]

theorem mergeAll_snapshot {merged : SignalBatch σ} (all : mergeAll batches = some merged) (id : String) :
    merged.signalSnapshots.get? id = lastSnapshot id batches := by
  have search : ∀ (rest : List (SignalBatch σ)) (batch : SignalBatch σ),
      (rest.foldl mergeBatch batch).signalSnapshots.get? id = (lastSnapshot id rest).or (batch.signalSnapshots.get? id) := by
    intro rest
    induction rest with
    | nil => intro batch; rfl
    | cons next rest ih =>
      intro batch
      rw [List.foldl_cons, ih, lastSnapshot, Option.or_assoc]
      congr 1
      exact Dict.get?_update _ _ _
  cases batches with
  | nil => cases all
  | cons batch rest =>
    cases all
    exact search rest batch

theorem firstSnapshot_named {earlier : List (SignalBatch σ)} (named : Names id earlier) (later : List (SignalBatch σ)) :
    firstSnapshot id (earlier ++ later) = firstSnapshot id earlier := by
  induction earlier with
  | nil =>
    obtain ⟨batch, member, -⟩ := named
    cases member
  | cons batch rest ih =>
    rw [List.cons_append, firstSnapshot, firstSnapshot]
    by_cases own : id ∈ batch.signalIds.ids
    · rw [if_pos own, if_pos own]
    · have inRest : Names id rest := by
        obtain ⟨other, member, has⟩ := named
        cases List.mem_cons.1 member with
        | inl same => exact absurd (same ▸ has) own
        | inr later => exact ⟨other, later, has⟩
      rw [if_neg own, if_neg own, ih inRest]

theorem firstSnapshot_unnamed {earlier : List (SignalBatch σ)} (unnamed : ¬Names id earlier) (later : List (SignalBatch σ)) :
    firstSnapshot id (earlier ++ later) = firstSnapshot id later := by
  induction earlier with
  | nil => rfl
  | cons batch rest ih =>
    have own : id ∉ batch.signalIds.ids := fun has => unnamed ⟨batch, List.mem_cons_self, has⟩
    have inRest : ¬Names id rest := by
      intro named
      obtain ⟨other, member, has⟩ := named
      exact unnamed ⟨other, List.mem_cons_of_mem _ member, has⟩
    rw [List.cons_append, firstSnapshot, if_neg own, ih inRest]

theorem lastSnapshot_append (id : String) (earlier later : List (SignalBatch σ)) :
    lastSnapshot id (earlier ++ later) = (lastSnapshot id later).or (lastSnapshot id earlier) := by
  induction earlier with
  | nil => rw [List.nil_append, lastSnapshot, Option.or_none]
  | cons batch rest ih => rw [List.cons_append, lastSnapshot, ih, lastSnapshot, Option.or_assoc]

theorem lastSnapshot_eq_none :
    lastSnapshot id batches = none ↔ ∀ batch ∈ batches, batch.signalSnapshots.get? id = none := by
  induction batches with
  | nil => simp [lastSnapshot]
  | cons batch rest ih =>
    rw [lastSnapshot, Option.or_eq_none_iff, ih, List.forall_mem_cons, and_comm]

theorem lastSnapshot_mem {snapshot : σ} (last : lastSnapshot id batches = some snapshot) :
    ∃ batch ∈ batches, batch.signalSnapshots.get? id = some snapshot := by
  induction batches with
  | nil => cases last
  | cons batch rest ih =>
    rw [lastSnapshot, Option.or_eq_some_iff] at last
    cases last with
    | inl inRest =>
      obtain ⟨other, member, has⟩ := ih inRest
      exact ⟨other, List.mem_cons_of_mem _ member, has⟩
    | inr own => exact ⟨batch, List.mem_cons_self, own.2⟩

theorem first_naming (named : Names id batches) :
    ∃ earlier batch later, batches = earlier ++ batch :: later ∧ id ∈ batch.signalIds.ids ∧ ¬Names id earlier := by
  induction batches with
  | nil =>
    obtain ⟨batch, member, -⟩ := named
    cases member
  | cons batch rest ih =>
    by_cases own : id ∈ batch.signalIds.ids
    · exact ⟨[], batch, rest, rfl, own, by simp [Names]⟩
    · have inRest : Names id rest := by
        obtain ⟨other, member, has⟩ := named
        cases List.mem_cons.1 member with
        | inl same => exact absurd (same ▸ has) own
        | inr later => exact ⟨other, later, has⟩
      obtain ⟨earlier, first, later, split, has, unnamed⟩ := ih inRest
      have stillUnnamed : ¬Names id (batch :: earlier) := by
        intro named
        obtain ⟨other, member, has⟩ := named
        cases List.mem_cons.1 member with
        | inl same => exact own (same ▸ has)
        | inr old => exact unnamed ⟨other, old, has⟩
      exact ⟨batch :: earlier, first, later, by rw [split]; rfl, has, stillUnnamed⟩

/-- The first payload that names an id has its snapshot: the later ones have the same or none, and where it has none nobody has. -/
def SettledSnapshots (batches : List (SignalBatch σ)) : Prop :=
  ∀ earlier batch later, batches = earlier ++ batch :: later → ∀ id ∈ batch.signalIds.ids, ¬Names id earlier →
    (∀ snapshot, batch.signalSnapshots.get? id = some snapshot →
      ∀ other ∈ later, ∀ again, other.signalSnapshots.get? id = some again → again = snapshot) ∧
    (batch.signalSnapshots.get? id = none → ∀ other ∈ batches, other.signalSnapshots.get? id = none)

theorem settled_iff (batches : List (SignalBatch σ)) : SettledSnapshots batches ↔
    ∀ earlier later, batches = earlier ++ later → ∀ id, Names id earlier → lastSnapshot id earlier = firstSnapshot id earlier := by
  constructor
  · intro settled earlier later cut id named
    obtain ⟨before, batch, after, split, has, unnamed⟩ := first_naming named
    have whole : batches = before ++ batch :: (after ++ later) := by rw [cut, split, List.append_assoc, List.cons_append]
    obtain ⟨some_, none_⟩ := settled before batch (after ++ later) whole id has unnamed
    have first : firstSnapshot id earlier = batch.signalSnapshots.get? id := by
      rw [split, firstSnapshot_unnamed unnamed, firstSnapshot, if_pos has]
    rw [first]
    cases own : batch.signalSnapshots.get? id with
    | none =>
      rw [lastSnapshot_eq_none]
      exact fun other member => none_ own other (cut ▸ List.mem_append_left _ member)
    | some snapshot =>
      rw [split, lastSnapshot_append, lastSnapshot, own]
      cases last : lastSnapshot id after with
      | none => rfl
      | some again =>
        obtain ⟨other, member, hasOther⟩ := lastSnapshot_mem last
        have same := some_ snapshot own other (List.mem_append_left _ member) again hasOther
        rw [same]
        rfl
  · intro cuts earlier batch later split id has unnamed
    have named : ∀ rest, Names id (earlier ++ batch :: rest) := fun rest =>
      ⟨batch, List.mem_append_right _ List.mem_cons_self, has⟩
    have first : ∀ rest, firstSnapshot id (earlier ++ batch :: rest) = batch.signalSnapshots.get? id := by
      intro rest
      rw [firstSnapshot_unnamed unnamed, firstSnapshot, if_pos has]
    constructor
    · intro snapshot own other member again hasOther
      obtain ⟨before, after, cut⟩ := List.append_of_mem member
      have whole : batches = (earlier ++ batch :: (before ++ [other])) ++ after := by
        rw [split, cut]
        simp
      have last := cuts _ after whole id (named _)
      rw [first, own, ← List.cons_append, ← List.append_assoc, lastSnapshot_append] at last
      have lastOther : lastSnapshot id [other] = some again := by rw [lastSnapshot, hasOther]; rfl
      rw [lastOther] at last
      exact Option.some.inj last
    · intro own
      have last := cuts batches [] (List.append_nil _).symm id (split ▸ named later)
      rw [split, first, own, ← split] at last
      exact lastSnapshot_eq_none.1 last

theorem takeAll_merged_ids (earlier later : List (SignalBatch σ)) :
    (takeAll ((mergeAll earlier).toList ++ later)).1 = (takeAll (earlier ++ later)).1 := by
  cases all : mergeAll earlier with
  | none =>
    cases earlier with
    | nil => rfl
    | cons batch rest => cases all
  | some merged =>
    have start : noSignals.addAll merged.signalIds = (takeAll earlier).1 := by rw [noSignals_addAll, mergeAll_ids all]
    rw [takeAll_ids, takeAll_ids, List.foldl_append, List.foldl_append, ← takeAll_ids earlier, ← start]
    rfl

theorem takeAll_merged_snapshot (earlier later : List (SignalBatch σ)) (id : String) :
    (Names id earlier → (takeAll ((mergeAll earlier).toList ++ later)).2.get? id = lastSnapshot id earlier) ∧
      (¬Names id earlier → (takeAll ((mergeAll earlier).toList ++ later)).2.get? id = firstSnapshot id later) := by
  rw [takeAll_snapshot]
  cases all : mergeAll earlier with
  | none =>
    cases earlier with
    | nil =>
      constructor
      · intro named
        obtain ⟨batch, member, -⟩ := named
        cases member
      · exact fun _ => rfl
    | cons batch rest => cases all
  | some merged =>
    have members : id ∈ merged.signalIds.ids ↔ Names id earlier := by rw [mergeAll_ids all, mem_takeAll]
    constructor
    · intro named
      show firstSnapshot id (merged :: later) = _
      rw [firstSnapshot, if_pos (members.2 named), mergeAll_snapshot all]
    · intro unnamed
      show firstSnapshot id (merged :: later) = _
      rw [firstSnapshot, if_neg (fun member => unnamed (members.1 member))]

end Views

section Lanes

variable {σ : Type} (lower : String → String)

def share (key : String) (batches : List (SignalBatch σ)) : List (SignalBatch σ) :=
  batches.filter fun batch => batch.sourceKey lower = key

theorem share_append (key : String) (earlier later : List (SignalBatch σ)) :
    share lower key (earlier ++ later) = share lower key earlier ++ share lower key later := List.filter_append _ _

theorem share_single (key : String) (batch : SignalBatch σ) :
    share lower key [batch] = if batch.sourceKey lower = key then [batch] else [] := by
  unfold share
  rw [List.filter_cons]
  simp

theorem mergeAll_concat (batches : List (SignalBatch σ)) (batch : SignalBatch σ) :
    mergeAll (batches ++ [batch]) = some ((mergeAll batches).elim batch fun existing => mergeBatch existing batch) := by
  cases batches with
  | nil => rfl
  | cons first rest =>
    show some ((rest ++ [batch]).foldl mergeBatch first) = some (mergeBatch (rest.foldl mergeBatch first) batch)
    rw [List.foldl_append]
    rfl

theorem share_merged (key : String) (queue : List (SignalBatch σ)) :
    share lower key (mergeSameSourcePayloads lower queue) = (mergeAll (share lower key queue)).toList := by
  have walked : ∀ queue : List (SignalBatch σ), ∀ merged, merged = queue.foldl (fun merged batch =>
      let key := batch.sourceKey lower
      (merged.get? key).elim (merged.set key batch) fun existing => merged.set key (mergeBatch existing batch)) Dict.empty →
      (merged.All fun key batch => batch.sourceKey lower = key) ∧ ∀ key, merged.get? key = mergeAll (share lower key queue) := by
    intro queue
    induction queue using List.reverseRecOn with
    | nil =>
      intro merged same
      rw [same]
      exact ⟨Dict.all_empty _, fun _ => rfl⟩
    | append_singleton earlier batch ih =>
      intro merged same
      rw [List.foldl_append, List.foldl_cons, List.foldl_nil] at same
      obtain ⟨named, held⟩ := ih _ rfl
      generalize earlier.foldl _ Dict.empty = before at same named held
      have new : merged = before.set (batch.sourceKey lower) ((before.get? (batch.sourceKey lower)).elim batch fun existing =>
          mergeBatch existing batch) := by
        rw [same]
        cases found : before.get? (batch.sourceKey lower) with
        | none => simp only [found, Option.elim]
        | some existing => simp only [found, Option.elim]
      constructor
      · rw [new]
        apply named.set
        cases found : before.get? (batch.sourceKey lower) with
        | none => rfl
        | some existing =>
          have kept : existing.sourceKey lower = batch.sourceKey lower := named.of_get? found
          exact kept
      · intro key
        rw [new, Dict.get?_set, share_append, share_single]
        by_cases own : batch.sourceKey lower = key
        · rw [if_pos own, if_pos own, mergeAll_concat, ← held, own]
        · rw [if_neg own, if_neg own, List.append_nil, held]
  obtain ⟨named, held⟩ := walked queue _ rfl
  have values := Dict.values_named named key
  rw [held] at values
  rw [← values]
  unfold mergeSameSourcePayloads
  congr 3
  funext merged batch
  cases found : merged.get? (batch.sourceKey lower) <;> simp only [found, Option.elim]

theorem laneRun_share (steps : List (LaneStep σ)) (key : String) : ∃ earlier later,
    share lower key (publishedBatches lower (steps.filterMap LaneStep.call)) = earlier ++ later ∧
      share lower key (laneRun lower steps) = (mergeAll earlier).toList ++ later := by
  induction steps using List.reverseRecOn with
  | nil => exact ⟨[], [], rfl, rfl⟩
  | append_singleton before step ih =>
    obtain ⟨earlier, later, published, queued⟩ := ih
    have ran : laneRun lower (before ++ [step]) = laneStep lower (laneRun lower before) step := by
      rw [laneRun, List.foldl_append]
      rfl
    cases step with
    | publish call =>
      have calls : publishedBatches lower ((before ++ [LaneStep.publish call]).filterMap LaneStep.call) =
          publishedBatches lower (before.filterMap LaneStep.call) ++ (publishedBatch lower call).toList := by
        rw [List.filterMap_append, publishedBatches, List.filterMap_append]
        congr 1
      refine ⟨earlier, later ++ share lower key (publishedBatch lower call).toList, ?_, ?_⟩
      · rw [calls, share_append, published, List.append_assoc]
      · rw [ran, laneStep, share_append, queued, List.append_assoc]
    | compact =>
      have calls : (before ++ [LaneStep.compact]).filterMap LaneStep.call = before.filterMap (@LaneStep.call σ) := by
        rw [List.filterMap_append]
        exact List.append_nil _
      refine ⟨earlier ++ later, [], ?_, ?_⟩
      · rw [calls, published, List.append_nil]
      · rw [ran, laneStep, share_merged, queued, mergeAll_append, List.append_nil]

theorem laneRun_publishes (steps : List (LaneStep σ)) (calls : List (SignalCall σ)) :
    laneRun lower (steps ++ calls.map LaneStep.publish) = laneRun lower steps ++ publishedBatches lower calls := by
  induction calls using List.reverseRecOn with
  | nil => simp [publishedBatches]
  | append_singleton before call ih =>
    rw [List.map_append, ← List.append_assoc, laneRun, List.foldl_append, publishedBatches, List.filterMap_append, ← List.append_assoc]
    show laneRun lower (steps ++ before.map LaneStep.publish) ++ (publishedBatch lower call).toList = _
    rw [ih]
    congr 1

theorem laneRun_plain (calls : List (SignalCall σ)) : laneRun lower (calls.map LaneStep.publish) = publishedBatches lower calls :=
  laneRun_publishes lower [] calls

theorem publishSignalBatch_steps (calls : List (SignalCall σ)) : ∃ steps : List (LaneStep σ),
    steps.filterMap LaneStep.call = calls ∧ calls.foldl (publishSignalBatch lower) [] = laneRun lower steps := by
  induction calls using List.reverseRecOn with
  | nil => exact ⟨[], rfl, rfl⟩
  | append_singleton before call ih =>
    obtain ⟨steps, called, ran⟩ := ih
    have last : ∀ extra : List (LaneStep σ), extra.filterMap LaneStep.call = [call] →
        (steps ++ extra).filterMap LaneStep.call = before ++ [call] := by
      intro extra only
      rw [List.filterMap_append, called, only]
    rw [List.foldl_append, List.foldl_cons, List.foldl_nil, ran, publishSignalBatch]
    cases new : publishedBatch lower call with
    | none =>
      refine ⟨steps ++ [.publish call], last _ rfl, ?_⟩
      rw [laneRun, laneRun, List.foldl_append, List.foldl_cons, List.foldl_nil, laneStep, new]
      exact (List.append_nil _).symm
    | some batch =>
      by_cases full : queueCompactThreshold ≤ (laneRun lower steps).length
      · refine ⟨steps ++ [.compact, .publish call], last _ rfl, ?_⟩
        simp only [if_pos full]
        rw [laneRun, laneRun, List.foldl_append, List.foldl_cons, List.foldl_cons, List.foldl_nil, laneStep, laneStep, new]
        rfl
      · refine ⟨steps ++ [.publish call], last _ rfl, ?_⟩
        simp only [if_neg full]
        rw [laneRun, laneRun, List.foldl_append, List.foldl_cons, List.foldl_nil, laneStep, new]
        rfl

theorem coalesce_share (batches : List (SignalBatch σ)) (key : String) :
    ((batches.foldl (coalesceBatch lower) {}).sourceSignalIds.get? key =
      if share lower key batches = [] then none else some (takeAll (share lower key batches)).1) ∧
    ((batches.foldl (coalesceBatch lower) {}).sourceSignalSnapshots.get? key =
      if share lower key batches = [] then none else some (takeAll (share lower key batches)).2) := by
  induction batches using List.reverseRecOn with
  | nil => exact ⟨rfl, rfl⟩
  | append_singleton before batch ih =>
    rw [List.foldl_append, List.foldl_cons, List.foldl_nil, share_append, share_single]
    generalize before.foldl (coalesceBatch lower) {} = result at ih
    unfold coalesceBatch
    simp only [Dict.get?_set]
    by_cases own : batch.sourceKey lower = key
    · have taken : ((result.sourceSignalIds.get? key).getD noSignals, (result.sourceSignalSnapshots.get? key).getD Dict.empty) =
          takeAll (share lower key before) := by
        rw [ih.1, ih.2]
        by_cases none_ : share lower key before = []
        · rw [if_pos none_, if_pos none_, none_]
          rfl
        · rw [if_neg none_, if_neg none_]
          rfl
      have whole : takeAll (share lower key before ++ [batch]) = takeBatch (takeAll (share lower key before)) batch := by
        rw [takeAll, List.foldl_append]
        rfl
      subst own
      simp [taken, whole]
    · rw [if_neg own, if_neg own, if_neg own, List.append_nil]
      exact ih

def RuntimeSignalBatch.snapshot (batch : RuntimeSignalBatch σ) (key id : String) : Option σ :=
  (batch.sourceSignalSnapshots.get? key).bind fun snapshots => snapshots.get? id

/-- The consumer gets the same ids in the same order under each source, and the same snapshots. -/
def SameSignals (first second : Option (RuntimeSignalBatch σ)) : Prop :=
  first.isSome = second.isSome ∧ ∀ one other, first = some one → second = some other → ∀ key,
    one.sourceSignalIds.get? key = other.sourceSignalIds.get? key ∧ ∀ id, one.snapshot key id = other.snapshot key id

def ComesOnce (result : Option (RuntimeSignalBatch σ)) (key id : String) : Prop :=
  ∃ batch ids, result = some batch ∧ batch.sourceSignalIds.get? key = some ids ∧ ids.ids.count id = 1

theorem SameSignals.snapshot {first second : Option (RuntimeSignalBatch σ)} (same : SameSignals first second) (key id : String) :
    (first.bind fun batch => batch.snapshot key id) = second.bind fun batch => batch.snapshot key id := by
  obtain ⟨present, each⟩ := same
  cases first with
  | none =>
    cases second with
    | none => rfl
    | some other => cases present
  | some one =>
    cases second with
    | none => cases present
    | some other => exact (each one other rfl rfl key).2 id

/-- Whenever the lane is compacted between these calls, the consumer sees nothing of it, and every published id comes once. -/
def CompactionInvisible (calls : List (SignalCall σ)) : Prop :=
  ∀ steps : List (LaneStep σ), steps.filterMap LaneStep.call = calls →
    SameSignals (coalesceBatches lower (laneRun lower steps)) (coalesceBatches lower (laneRun lower (calls.map LaneStep.publish))) ∧
      ∀ batch ∈ publishedBatches lower calls, ∀ id ∈ batch.signalIds.ids,
        ComesOnce (coalesceBatches lower (laneRun lower steps)) (batch.sourceKey lower) id

theorem coalesceBatches_cases (batches : List (SignalBatch σ)) :
    batches = [] ∧ coalesceBatches lower batches = none ∨
      batches ≠ [] ∧ coalesceBatches lower batches = some (batches.foldl (coalesceBatch lower) {}) := by
  cases batches with
  | nil => exact Or.inl ⟨rfl, rfl⟩
  | cons batch rest => exact Or.inr ⟨List.cons_ne_nil _ _, rfl⟩

theorem coalesce_snapshot (batches : List (SignalBatch σ)) (key id : String) :
    (batches.foldl (coalesceBatch lower) {}).snapshot key id = firstSnapshot id (share lower key batches) := by
  rw [RuntimeSignalBatch.snapshot, (coalesce_share lower batches key).2]
  by_cases none_ : share lower key batches = []
  · rw [if_pos none_, none_]
    rfl
  · rw [if_neg none_]
    exact takeAll_snapshot _ _

theorem merged_eq_nil (earlier later : List (SignalBatch σ)) : (mergeAll earlier).toList ++ later = [] ↔ earlier ++ later = [] := by
  cases earlier with
  | nil => rfl
  | cons batch rest => simp [mergeAll]

theorem laneRun_eq_nil (steps : List (LaneStep σ)) :
    laneRun lower steps = [] ↔ publishedBatches lower (steps.filterMap LaneStep.call) = [] := by
  have empty : ∀ batches : List (SignalBatch σ), batches = [] ↔ ∀ key, share lower key batches = [] := by
    intro batches
    constructor
    · intro none_ key
      rw [none_]
      rfl
    · intro shares
      cases batches with
      | nil => rfl
      | cons batch rest =>
        have own := shares (batch.sourceKey lower)
        rw [share, List.filter_cons_of_pos (by simp)] at own
        cases own
  rw [empty, empty]
  apply forall_congr'
  intro key
  obtain ⟨earlier, later, published, queued⟩ := laneRun_share lower steps key
  rw [queued, published, merged_eq_nil]

theorem takeAll_count {batches : List (SignalBatch σ)} {id : String} (named : Names id batches) : (takeAll batches).1.ids.count id = 1 :=
  List.count_eq_one_of_mem (takeAll batches).1.nodup ((mem_takeAll batches id).2 named)

theorem compacted_ids (steps : List (LaneStep σ)) (key : String) :
    ((laneRun lower steps).foldl (coalesceBatch lower) {}).sourceSignalIds.get? key =
      ((publishedBatches lower (steps.filterMap LaneStep.call)).foldl (coalesceBatch lower) {}).sourceSignalIds.get? key := by
  obtain ⟨earlier, later, published, queued⟩ := laneRun_share lower steps key
  rw [(coalesce_share lower _ key).1, (coalesce_share lower _ key).1, queued, published]
  simp only [merged_eq_nil, takeAll_merged_ids]

/-- Compactions stay invisible for exactly those calls whose snapshots are settled, source by source. -/
theorem compaction_invisible_iff (calls : List (SignalCall σ)) :
    CompactionInvisible lower calls ↔ ∀ key, SettledSnapshots (share lower key (publishedBatches lower calls)) := by
  constructor
  · intro invisible key
    rw [settled_iff]
    intro earlier later cut id named
    -- a compaction right after the payloads before the cut
    obtain ⟨first, last, split, shareFirst, shareLast⟩ : ∃ first last, publishedBatches lower calls = first ++ last ∧
        share lower key first = earlier ∧ share lower key last = later := List.filter_eq_append_iff.1 cut
    obtain ⟨before, after, callsSplit, publishedBefore, publishedAfter⟩ := List.filterMap_eq_append_iff.1 split
    have called : ((before.map LaneStep.publish ++ [LaneStep.compact]) ++ after.map LaneStep.publish).filterMap LaneStep.call = calls := by
      simp only [List.filterMap_append, List.filterMap_map, callsSplit]
      congr 1
      · rw [show [LaneStep.compact].filterMap (@LaneStep.call σ) = [] from rfl, List.append_nil]
        exact List.filterMap_some
      · exact List.filterMap_some
    have ran : laneRun lower ((before.map LaneStep.publish ++ [LaneStep.compact]) ++ after.map LaneStep.publish) =
        mergeSameSourcePayloads lower first ++ last := by
      rw [laneRun_publishes, laneRun, List.foldl_append]
      show mergeSameSourcePayloads lower (laneRun lower (before.map LaneStep.publish)) ++ publishedBatches lower after = _
      rw [laneRun_plain, publishedBatches, publishedBatches, publishedBefore, publishedAfter]
    obtain ⟨present, same⟩ := (invisible _ called).1
    rw [laneRun_plain, ran] at same
    have published : publishedBatches lower calls ≠ [] := by
      intro none_
      obtain ⟨batch, member, -⟩ := named
      rw [← shareFirst] at member
      have whole : batch ∈ publishedBatches lower calls := by
        rw [split]
        exact List.mem_append_left _ (List.mem_filter.1 member).1
      rw [none_] at whole
      cases whole
    have queued : mergeSameSourcePayloads lower first ++ last ≠ [] := by
      rw [← ran, Ne, laneRun_eq_nil, called]
      exact published
    obtain none_ | ⟨-, compacted⟩ := coalesceBatches_cases lower (mergeSameSourcePayloads lower first ++ last)
    · exact absurd none_.1 queued
    obtain none_ | ⟨-, plain⟩ := coalesceBatches_cases lower (publishedBatches lower calls)
    · exact absurd none_.1 published
    have snapshots := (same _ _ compacted plain key).2 id
    rw [coalesce_snapshot, coalesce_snapshot, share_append, share_merged, shareFirst, shareLast, cut, firstSnapshot_named named,
      ← takeAll_snapshot, (takeAll_merged_snapshot earlier later id).1 named] at snapshots
    exact snapshots
  · intro settled steps called
    have empties := laneRun_eq_nil lower steps
    rw [called] at empties
    rw [laneRun_plain]
    obtain ⟨nonePublished, nothing⟩ | ⟨published, plain⟩ := coalesceBatches_cases lower (publishedBatches lower calls)
    · rw [nothing, nonePublished, empties.2 nonePublished]
      constructor
      · constructor
        · rfl
        · intro one other isNone
          cases isNone
      · intro batch member
        cases member
    obtain none_ | ⟨-, compacted⟩ := coalesceBatches_cases lower (laneRun lower steps)
    · exact absurd (empties.1 none_.1) published
    rw [plain, compacted]
    constructor
    · constructor
      · rfl
      · intro one other isOne isOther key
        cases isOne
        cases isOther
        constructor
        · rw [compacted_ids, called]
        · intro id
          obtain ⟨earlier, later, cut, queued⟩ := laneRun_share lower steps key
          rw [called] at cut
          rw [coalesce_snapshot, coalesce_snapshot, queued, cut, ← takeAll_snapshot]
          by_cases named : Names id earlier
          · rw [(takeAll_merged_snapshot earlier later id).1 named, firstSnapshot_named named,
              (settled_iff _).1 (settled key) earlier later cut id named]
          · rw [(takeAll_merged_snapshot earlier later id).2 named, firstSnapshot_unnamed named]
    · intro batch member id has
      have own : batch ∈ share lower (batch.sourceKey lower) (publishedBatches lower calls) :=
        List.mem_filter.2 ⟨member, by simp⟩
      refine ⟨_, _, rfl, ?_, takeAll_count ⟨batch, own, has⟩⟩
      rw [compacted_ids, called, (coalesce_share lower _ _).1, if_neg (List.ne_nil_of_mem own)]

end Lanes

def repeatedCalls : List (SignalCall ℕ) :=
  [{ eventType := "upsert_insert", source := some "crypto", signalIds := ["s1"], trigger := "", emittedAt := none,
     signalSnapshots := Dict.empty.set "s1" 1, batchId := "b1", now := "t1" },
   { eventType := "upsert_update", source := some "crypto", signalIds := ["s1"], trigger := "", emittedAt := none,
     signalSnapshots := Dict.empty.set "s1" 2, batchId := "b2", now := "t2" }]

theorem compacted_snapshot_changes : ¬CompactionInvisible id repeatedCalls := by
  intro invisible
  have same := (invisible (repeatedCalls.map LaneStep.publish ++ [LaneStep.compact]) rfl).1.snapshot "crypto" "s1"
  have compacted : ((coalesceBatches id (laneRun id (repeatedCalls.map LaneStep.publish ++ [LaneStep.compact]))).bind
      fun batch => batch.snapshot "crypto" "s1") = some 2 := by decide +kernel
  have plain : ((coalesceBatches id (laneRun id (repeatedCalls.map LaneStep.publish))).bind
      fun batch => batch.snapshot "crypto" "s1") = some 1 := by decide +kernel
  rw [compacted, plain] at same
  cases same

end Callisto.Signals
