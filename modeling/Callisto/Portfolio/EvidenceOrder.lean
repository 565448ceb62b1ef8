import Callisto.Library.Traversals
import Callisto.Portfolio.Evidence

/-! What the deduplication keeps depends on the records that are read, not on their order, their number or their source. -/

namespace Callisto.Portfolio

open Callisto.Library Callisto.Venues

theorem mem_sortedSet {texts : List String} {text : String} : text ∈ sortedSet texts ↔ text ∈ texts := by
  rw [sortedSet, (List.perm_insertionSort _ _).mem_iff, List.mem_dedup]

theorem sortedSet_congr {first second : List String} (same : ∀ text, text ∈ first ↔ text ∈ second) : sortedSet first = sortedSet second := by
  have members : first.dedup.Perm second.dedup :=
    (List.perm_ext_iff_of_nodup first.nodup_dedup second.nodup_dedup).2 fun text => by rw [List.mem_dedup, List.mem_dedup, same text]
  have sorted := ((List.perm_insertionSort (· ≤ ·) _).trans members).trans (List.perm_insertionSort (· ≤ ·) _).symm
  exact sorted.eq_of_pairwise' (List.pairwise_insertionSort _ _) (List.pairwise_insertionSort _ _)

theorem mem_groupOf {α : Type} {key : α → String} {name : String} {records : List α} {record : α} :
    record ∈ groupOf key name records ↔ record ∈ records ∧ key record = name := by
  rw [groupOf, List.mem_filter, decide_eq_true_eq]

variable {sha : Sha256} {snapshots : List KalshiOrder}

def Dated (order : KalshiOrder) : Prop := ∃ instant, orderUpdatedAt order = .ok instant

theorem withTime_ok {snapshot : KalshiOrder} {entry : KalshiOrder × ℤ} :
    withTime snapshot = .ok entry ↔ entry.1 = snapshot ∧ orderUpdatedAt snapshot = .ok entry.2 := by
  rw [withTime, bind_ok]
  constructor
  · intro found
    obtain ⟨instant, read, same⟩ := found
    cases same
    exact ⟨rfl, read⟩
  · intro found
    obtain ⟨rfl, read⟩ := found
    exact ⟨entry.2, read, rfl⟩

theorem mem_timed {timed : List (KalshiOrder × ℤ)} (read : snapshots.mapM withTime = .ok timed)
    (entry : KalshiOrder × ℤ) : entry ∈ timed ↔ entry.1 ∈ snapshots ∧ orderUpdatedAt entry.1 = .ok entry.2 := by
  rw [mem_of_mapM read]
  constructor
  · intro found
    obtain ⟨snapshot, member, taken⟩ := found
    obtain ⟨rfl, instant⟩ := withTime_ok.1 taken
    exact ⟨member, instant⟩
  · intro found
    exact ⟨entry.1, found.1, withTime_ok.2 ⟨rfl, found.2⟩⟩

theorem timed_iff : (∃ timed, snapshots.mapM withTime = .ok timed) ↔ ∀ snapshot ∈ snapshots, Dated snapshot := by
  rw [mapM_succeeds_iff]
  constructor
  · intro all snapshot member
    obtain ⟨entry, taken⟩ := all snapshot member
    exact ⟨entry.2, (withTime_ok.1 taken).2⟩
  · intro all snapshot member
    obtain ⟨instant, dated⟩ := all snapshot member
    exact ⟨(snapshot, instant), withTime_ok.2 ⟨rfl, dated⟩⟩

theorem mem_latest {timed : List (KalshiOrder × ℤ)} (read : snapshots.mapM withTime = .ok timed)
    (order : KalshiOrder) : order ∈ latest timed ↔ order ∈ snapshots ∧ ∃ instant, orderUpdatedAt order = .ok instant ∧
      ∀ other ∈ snapshots, ∀ time, orderUpdatedAt other = .ok time → time ≤ instant := by
  unfold latest
  rw [List.mem_map]
  constructor
  · intro found
    obtain ⟨entry, member, rfl⟩ := found
    obtain ⟨member, greatest⟩ := List.mem_filter.1 member
    have greatest := (List.max?_eq_some_iff.1 (of_decide_eq_true greatest)).2
    obtain ⟨mine, instant⟩ := (mem_timed read entry).1 member
    refine ⟨mine, entry.2, instant, fun other there time dated => ?_⟩
    exact greatest time (List.mem_map.2 ⟨(other, time), (mem_timed read _).2 ⟨there, dated⟩, rfl⟩)
  · intro found
    obtain ⟨mine, instant, dated, greatest⟩ := found
    have member := (mem_timed read (order, instant)).2 ⟨mine, dated⟩
    refine ⟨(order, instant), List.mem_filter.2 ⟨member, decide_eq_true (List.max?_eq_some_iff.2 ⟨?_, ?_⟩)⟩, rfl⟩
    · exact List.mem_map.2 ⟨(order, instant), member, rfl⟩
    · intro time listed
      obtain ⟨entry, there, rfl⟩ := List.mem_map.1 listed
      obtain ⟨known, recorded⟩ := (mem_timed read entry).1 there
      exact greatest entry.1 known entry.2 recorded

theorem conflicting_congr {first second : List KalshiOrder} (same : ∀ order, order ∈ first ↔ order ∈ second) :
    Conflicting sha first ↔ Conflicting sha second := by simp only [Conflicting, same]

def Distinct (sha : Sha256) (records : List KalshiOrder) : Prop :=
  ∀ one ∈ records, ∀ other ∈ records, orderHash sha one = orderHash sha other → one = other

theorem selectOrder_congr {first second : List KalshiOrder} (same : ∀ order, order ∈ first ↔ order ∈ second)
    {orderId : String} {kept : Option KalshiOrder × List String}
    (distinct : Distinct sha first) (done : selectOrder sha orderId first = .ok kept) : selectOrder sha orderId second = .ok kept := by
  unfold selectOrder at done ⊢
  by_cases conflicting : Conflicting sha first
  · rw [if_pos conflicting] at done
    rw [if_pos ((conflicting_congr same).1 conflicting), ← argmin_congr (orderHash sha) same distinct]
    exact done
  · rw [if_neg conflicting] at done
    rw [if_neg (mt (conflicting_congr same).2 conflicting)]
    cases read : first.mapM withTime with
    | error error =>
      rw [read] at done
      cases done
    | ok timed =>
      have dated := timed_iff.1 ⟨timed, read⟩
      obtain ⟨others, again⟩ := timed_iff.2 fun snapshot member => dated snapshot ((same snapshot).2 member)
      have entries : ∀ entry, entry ∈ timed ↔ entry ∈ others := fun entry => by
        rw [mem_timed read, mem_timed again, same]
      have recent : ∀ order, order ∈ latest timed ↔ order ∈ latest others := fun order => by
        rw [mem_latest read, mem_latest again, same]
        simp only [same]
      have differing : TimeConflicting sha timed ↔ TimeConflicting sha others := by simp only [TimeConflicting, entries]
      have apart : ∀ one ∈ latest timed, ∀ other ∈ latest timed, orderHash sha one = orderHash sha other → one = other :=
        fun one here other there => distinct one ((mem_latest read one).1 here).1 other ((mem_latest read other).1 there).1
      have choice := argmin_congr (orderHash sha) recent apart
      rw [read] at done
      rw [again]
      change Except.ok ((latest timed).argmin (orderHash sha), if TimeConflicting sha timed then _ else _) = _ at done
      change Except.ok ((latest others).argmin (orderHash sha), if TimeConflicting sha others then _ else _) = _
      rw [← choice, ← if_congr differing rfl rfl]
      exact done

theorem selectOrder_agreeing {orderId : String} {kept : Option KalshiOrder × List String}
    (agreeing : ¬Conflicting sha snapshots) (done : selectOrder sha orderId snapshots = .ok kept) :
    ∃ timed, snapshots.mapM withTime = .ok timed ∧ kept.1 = (latest timed).argmin (orderHash sha) ∧
      (kept.2 = [] ↔ ¬TimeConflicting sha timed) := by
  unfold selectOrder at done
  rw [if_neg agreeing] at done
  cases read : snapshots.mapM withTime with
  | error error =>
    rw [read] at done
    cases done
  | ok timed =>
    rw [read] at done
    cases done
    refine ⟨timed, rfl, rfl, ?_⟩
    by_cases differing : TimeConflicting sha timed
    · simp [differing]
    · simp [differing]

theorem selectOrder_succeeds {orderId : String} :
    (∃ kept, selectOrder sha orderId snapshots = .ok kept) ↔ Conflicting sha snapshots ∨ ∀ snapshot ∈ snapshots, Dated snapshot := by
  by_cases conflicting : Conflicting sha snapshots
  · constructor
    · intro _
      exact .inl conflicting
    · intro _
      unfold selectOrder
      rw [if_pos conflicting]
      exact ⟨_, rfl⟩
  · rw [or_iff_right conflicting, ← timed_iff]
    constructor
    · intro done
      obtain ⟨kept, done⟩ := done
      obtain ⟨timed, read, -⟩ := selectOrder_agreeing conflicting done
      exact ⟨timed, read⟩
    · intro timed
      obtain ⟨timed, read⟩ := timed
      unfold selectOrder
      rw [if_neg conflicting, read]
      exact ⟨_, rfl⟩

theorem keepOrder_ok {records : List KalshiOrder} {orderId : String} {entry : ById KalshiOrder × List String} :
    keepOrder sha records orderId = .ok entry ↔ ∃ kept, selectOrder sha orderId (groupOf KalshiOrder.orderId orderId records) = .ok kept ∧
      entry = (kept.1.toList.map fun order => (orderId, order), kept.2) := by
  rw [keepOrder, bind_ok]
  exact exists_congr fun _ => and_congr_right fun _ => ok_iff

theorem dedupeOrders_ok {records : List KalshiOrder} {result : ById KalshiOrder × List String} :
    dedupeOrders sha records = .ok result ↔
      ∃ selected, (sortedSet (records.map KalshiOrder.orderId)).mapM (keepOrder sha records) = .ok selected ∧
        result = (selected.flatMap Prod.fst, selected.flatMap Prod.snd) := by
  rw [dedupeOrders, bind_ok]
  exact exists_congr fun _ => and_congr_right fun _ => ok_iff

/-- An order has no usable update time, and its snapshots agree in what never changes. -/
def Undated (sha : Sha256) (records : List KalshiOrder) : Prop :=
  ∃ order ∈ records, ¬Dated order ∧ ¬Conflicting sha (groupOf KalshiOrder.orderId order.orderId records)

theorem dedupeOrders_succeeds {records : List KalshiOrder} : (∃ result, dedupeOrders sha records = .ok result) ↔ ¬Undated sha records := by
  have selected : (∃ result, dedupeOrders sha records = .ok result) ↔
      ∃ selected, (sortedSet (records.map KalshiOrder.orderId)).mapM (keepOrder sha records) = .ok selected := by
    simp only [dedupeOrders_ok]
    exact ⟨fun found => ⟨found.choose_spec.choose, found.choose_spec.choose_spec.1⟩, fun found => ⟨_, found.choose, found.choose_spec, rfl⟩⟩
  rw [selected, mapM_succeeds_iff]
  constructor
  · intro all undated
    obtain ⟨order, member, undated, agreeing⟩ := undated
    obtain ⟨entry, kept⟩ := all order.orderId (mem_sortedSet.2 (List.mem_map.2 ⟨order, member, rfl⟩))
    obtain ⟨kept, done, -⟩ := keepOrder_ok.1 kept
    cases selectOrder_succeeds.1 ⟨kept, done⟩ with
    | inl conflicting => exact agreeing conflicting
    | inr dated => exact undated (dated order (mem_groupOf.2 ⟨member, rfl⟩))
  · intro dated orderId listed
    have succeeds : ∃ kept, selectOrder sha orderId (groupOf KalshiOrder.orderId orderId records) = .ok kept := by
      rw [selectOrder_succeeds]
      by_contra stuck
      rw [not_or] at stuck
      obtain ⟨agreeing, undated⟩ := stuck
      push Not at undated
      obtain ⟨order, member, undated⟩ := undated
      obtain ⟨member, named⟩ := mem_groupOf.1 member
      exact dated ⟨order, member, undated, named ▸ agreeing⟩
    obtain ⟨kept, done⟩ := succeeds
    exact ⟨_, keepOrder_ok.2 ⟨kept, done, rfl⟩⟩

theorem mem_groupOf_congr {α : Type} {key : α → String} {first second : List α} (same : ∀ record, record ∈ first ↔ record ∈ second)
    (name : String) (record : α) : record ∈ groupOf key name first ↔ record ∈ groupOf key name second := by
  rw [mem_groupOf, mem_groupOf, same]

theorem sortedSet_map_congr {α : Type} (key : α → String) {first second : List α} (same : ∀ record, record ∈ first ↔ record ∈ second) :
    sortedSet (first.map key) = sortedSet (second.map key) := sortedSet_congr fun text => by simp only [List.mem_map, same]

theorem dedupeOrders_congr {first second : List KalshiOrder} (same : ∀ order, order ∈ first ↔ order ∈ second) (distinct : Distinct sha first)
    {result : ById KalshiOrder × List String} (done : dedupeOrders sha first = .ok result) : dedupeOrders sha second = .ok result := by
  obtain ⟨selected, read, rfl⟩ := dedupeOrders_ok.1 done
  rw [dedupeOrders_ok, ← sortedSet_map_congr KalshiOrder.orderId same]
  refine ⟨selected, mapM_agrees read fun orderId _ entry found => ?_, rfl⟩
  obtain ⟨kept, done, rfl⟩ := keepOrder_ok.1 found
  have apart : Distinct sha (groupOf KalshiOrder.orderId orderId first) := fun one here other there =>
    distinct one (mem_groupOf.1 here).1 other (mem_groupOf.1 there).1
  exact keepOrder_ok.2 ⟨kept, selectOrder_congr (mem_groupOf_congr same orderId) apart done, rfl⟩

theorem dedupeOrders_conflicts {part records : List KalshiOrder} (inside : ∀ order ∈ part, order ∈ records)
    {orders kept : ById KalshiOrder} {conflicts : List String} (all : dedupeOrders sha records = .ok (orders, []))
    (some : dedupeOrders sha part = .ok (kept, conflicts)) : conflicts = [] := by
  obtain ⟨selected, read, same⟩ := dedupeOrders_ok.1 all
  obtain ⟨chosen, taken, split⟩ := dedupeOrders_ok.1 some
  have clean : ∀ entry ∈ selected, entry.2 = [] := List.flatMap_eq_nil_iff.1 (congrArg Prod.snd same).symm
  rw [show conflicts = chosen.flatMap Prod.snd from congrArg Prod.snd split]
  refine List.flatMap_eq_nil_iff.2 fun entry member => ?_
  obtain ⟨orderId, listed, found⟩ := (mem_of_mapM taken entry).1 member
  obtain ⟨choice, done, rfl⟩ := keepOrder_ok.1 found
  -- the order id is one of the whole, where its snapshots agree
  obtain ⟨order, there, rfl⟩ := List.mem_map.1 (mem_sortedSet.1 listed)
  have known : order.orderId ∈ sortedSet (records.map KalshiOrder.orderId) :=
    mem_sortedSet.2 (List.mem_map.2 ⟨order, inside order there, rfl⟩)
  obtain ⟨whole, found⟩ := mapM_succeeds_iff.1 ⟨selected, read⟩ order.orderId known
  have quiet := clean whole ((mem_of_mapM read whole).2 ⟨order.orderId, known, found⟩)
  obtain ⟨judged, decided, rfl⟩ := keepOrder_ok.1 found
  have subset : ∀ record ∈ groupOf KalshiOrder.orderId order.orderId part, record ∈ groupOf KalshiOrder.orderId order.orderId records :=
    fun record member => mem_groupOf.2 ⟨inside record (mem_groupOf.1 member).1, (mem_groupOf.1 member).2⟩
  have agreeing : ¬Conflicting sha (groupOf KalshiOrder.orderId order.orderId records) := by
    intro conflicting
    unfold selectOrder at decided
    rw [if_pos conflicting] at decided
    cases decided
    cases quiet
  have calm : ¬Conflicting sha (groupOf KalshiOrder.orderId order.orderId part) := by
    intro conflicting
    obtain ⟨one, here, other, there, differ⟩ := conflicting
    exact agreeing ⟨one, subset one here, other, subset other there, differ⟩
  obtain ⟨timed, times, -, equal⟩ := selectOrder_agreeing agreeing decided
  obtain ⟨dates, recorded, -, silent⟩ := selectOrder_agreeing calm done
  refine silent.2 fun differing => equal.1 quiet ?_
  obtain ⟨one, here, other, there, differ⟩ := differing
  have moved : ∀ entry ∈ dates, entry ∈ timed := fun entry member =>
    (mem_timed times entry).2 ⟨subset _ ((mem_timed recorded entry).1 member).1, ((mem_timed recorded entry).1 member).2⟩
  exact ⟨one, moved one here, other, moved other there, differ⟩

theorem dedupeOrders_latest {records : List KalshiOrder} {orders : ById KalshiOrder} {conflicts : List String}
    (done : dedupeOrders sha records = .ok (orders, conflicts)) {entry : String × KalshiOrder} (member : entry ∈ orders) :
    entry.2 ∈ groupOf KalshiOrder.orderId entry.1 records ∧
      (¬Conflicting sha (groupOf KalshiOrder.orderId entry.1 records) → ∃ instant, orderUpdatedAt entry.2 = .ok instant ∧
        ∀ other ∈ groupOf KalshiOrder.orderId entry.1 records, ∃ time, orderUpdatedAt other = .ok time ∧ time ≤ instant) := by
  obtain ⟨selected, read, same⟩ := dedupeOrders_ok.1 done
  rw [show orders = selected.flatMap Prod.fst from congrArg Prod.fst same] at member
  obtain ⟨chosen, there, member⟩ := List.mem_flatMap.1 member
  obtain ⟨orderId, -, found⟩ := (mem_of_mapM read chosen).1 there
  obtain ⟨kept, decided, rfl⟩ := keepOrder_ok.1 found
  obtain ⟨order, chosen, rfl⟩ := List.mem_map.1 member
  have chosen : kept.1 = some order := Option.mem_toList.1 chosen
  by_cases conflicting : Conflicting sha (groupOf KalshiOrder.orderId orderId records)
  · unfold selectOrder at decided
    rw [if_pos conflicting] at decided
    cases decided
    exact ⟨List.argmin_mem chosen, fun agreeing => absurd conflicting agreeing⟩
  · obtain ⟨timed, times, choice, -⟩ := selectOrder_agreeing conflicting decided
    obtain ⟨here, instant, dated, greatest⟩ := (mem_latest times order).1 (List.argmin_mem (choice.symm.trans chosen))
    refine ⟨here, fun _ => ⟨instant, dated, fun other there => ?_⟩⟩
    obtain ⟨time, recorded⟩ := timed_iff.1 ⟨timed, times⟩ other there
    exact ⟨time, recorded, greatest other there time recorded⟩

def Divergent (records : List KalshiFill) : Prop := ∃ first ∈ records, ∃ second ∈ records, first.fillId = second.fillId ∧ first ≠ second

theorem keepFill_ok {records : List KalshiFill} {fillId : String} {entry : ById KalshiFill} :
    keepFill records fillId = .ok entry ↔
      (∀ first ∈ groupOf KalshiFill.fillId fillId records, ∀ second ∈ groupOf KalshiFill.fillId fillId records, first = second) ∧
      entry = (groupOf KalshiFill.fillId fillId records).getLast?.toList.map fun fill => (fillId, fill) := by
  unfold keepFill
  by_cases differ : ∃ first ∈ groupOf KalshiFill.fillId fillId records, ∃ second ∈ groupOf KalshiFill.fillId fillId records, first ≠ second
  · rw [if_pos differ]
    constructor
    · intro found
      cases found
    · intro found
      obtain ⟨first, here, second, there, differ⟩ := differ
      exact absurd (found.1 first here second there) differ
  · rw [if_neg differ]
    push Not at differ
    constructor
    · intro found
      cases found
      exact ⟨differ, rfl⟩
    · intro found
      rw [found.2]

theorem dedupeFills_ok {records : List KalshiFill} {result : ById KalshiFill} :
    dedupeFills records = .ok result ↔
      ∃ selected, (sortedSet (records.map KalshiFill.fillId)).mapM (keepFill records) = .ok selected ∧ result = selected.flatten := by
  rw [dedupeFills, bind_ok]
  exact exists_congr fun _ => and_congr_right fun _ => ok_iff

theorem dedupeFills_succeeds {records : List KalshiFill} : (∃ result, dedupeFills records = .ok result) ↔ ¬Divergent records := by
  have selected : (∃ result, dedupeFills records = .ok result) ↔
      ∃ selected, (sortedSet (records.map KalshiFill.fillId)).mapM (keepFill records) = .ok selected := by
    simp only [dedupeFills_ok]
    exact ⟨fun found => ⟨found.choose_spec.choose, found.choose_spec.choose_spec.1⟩, fun found => ⟨_, found.choose, found.choose_spec, rfl⟩⟩
  rw [selected, mapM_succeeds_iff]
  constructor
  · intro all divergent
    obtain ⟨first, here, second, there, named, differ⟩ := divergent
    obtain ⟨entry, kept⟩ := all first.fillId (mem_sortedSet.2 (List.mem_map.2 ⟨first, here, rfl⟩))
    exact differ ((keepFill_ok.1 kept).1 first (mem_groupOf.2 ⟨here, rfl⟩) second (mem_groupOf.2 ⟨there, named.symm⟩))
  · intro agreeing fillId _
    refine ⟨_, keepFill_ok.2 ⟨fun first here second there => ?_, rfl⟩⟩
    by_contra differ
    have named := (mem_groupOf.1 here).2.trans (mem_groupOf.1 there).2.symm
    exact agreeing ⟨first, (mem_groupOf.1 here).1, second, (mem_groupOf.1 there).1, named, differ⟩

theorem getLast_congr {α : Type} {first second : List α} (same : ∀ record, record ∈ first ↔ record ∈ second)
    (equal : ∀ one ∈ first, ∀ other ∈ first, one = other) : first.getLast? = second.getLast? := by
  cases left : first.getLast? with
  | none =>
    have empty : first = [] := List.getLast?_eq_none_iff.1 left
    subst empty
    have empty : second = [] := List.eq_nil_iff_forall_not_mem.2 fun record member => List.not_mem_nil ((same record).2 member)
    rw [empty, List.getLast?_nil]
  | some one =>
    have mine := List.mem_of_getLast? left
    cases right : second.getLast? with
    | none =>
      have empty : second = [] := List.getLast?_eq_none_iff.1 right
      exact absurd ((same one).1 mine) (by simp [empty])
    | some other => rw [equal one mine other ((same other).2 (List.mem_of_getLast? right))]

theorem dedupeFills_congr {first second : List KalshiFill} (same : ∀ fill, fill ∈ first ↔ fill ∈ second) {result : ById KalshiFill}
    (done : dedupeFills first = .ok result) : dedupeFills second = .ok result := by
  obtain ⟨selected, read, rfl⟩ := dedupeFills_ok.1 done
  rw [dedupeFills_ok, ← sortedSet_map_congr KalshiFill.fillId same]
  refine ⟨selected, mapM_agrees read fun fillId _ entry found => ?_, rfl⟩
  obtain ⟨equal, rfl⟩ := keepFill_ok.1 found
  have members : ∀ fill, fill ∈ groupOf KalshiFill.fillId fillId first ↔ fill ∈ groupOf KalshiFill.fillId fillId second :=
    mem_groupOf_congr same fillId
  refine keepFill_ok.2 ⟨fun one here other there => equal one ((members one).2 here) other ((members other).2 there), ?_⟩
  rw [getLast_congr members equal]

theorem dedupeFills_values {records : List KalshiFill} {result : ById KalshiFill} (done : dedupeFills records = .ok result)
    (fill : KalshiFill) : fill ∈ result.map Prod.snd ↔ fill ∈ records := by
  obtain ⟨selected, read, rfl⟩ := dedupeFills_ok.1 done
  rw [List.mem_map]
  constructor
  · intro found
    obtain ⟨entry, member, rfl⟩ := found
    obtain ⟨chosen, there, member⟩ := List.mem_flatten.1 member
    obtain ⟨fillId, -, kept⟩ := (mem_of_mapM read chosen).1 there
    obtain ⟨-, rfl⟩ := keepFill_ok.1 kept
    obtain ⟨fill, last, rfl⟩ := List.mem_map.1 member
    exact (mem_groupOf.1 (List.mem_of_getLast? (Option.mem_toList.1 last))).1
  · intro member
    have listed : fill.fillId ∈ sortedSet (records.map KalshiFill.fillId) := mem_sortedSet.2 (List.mem_map.2 ⟨fill, member, rfl⟩)
    obtain ⟨entry, kept⟩ := mapM_succeeds_iff.1 ⟨selected, read⟩ fill.fillId listed
    have there := (mem_of_mapM read entry).2 ⟨fill.fillId, listed, kept⟩
    obtain ⟨equal, rfl⟩ := keepFill_ok.1 kept
    have mine : fill ∈ groupOf KalshiFill.fillId fill.fillId records := mem_groupOf.2 ⟨member, rfl⟩
    cases last : (groupOf KalshiFill.fillId fill.fillId records).getLast? with
    | none =>
      rw [List.getLast?_eq_none_iff] at last
      exact absurd mine (by simp [last])
    | some found =>
      have same : found = fill := equal found (List.mem_of_getLast? last) fill mine
      subst same
      refine ⟨(found.fillId, found), List.mem_flatten.2 ⟨_, there, ?_⟩, rfl⟩
      simp [last]

end Callisto.Portfolio
