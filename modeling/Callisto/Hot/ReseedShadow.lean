import Callisto.Hot.Reseed

/-! What the calls and the reads of a reseed leave in each snapshot, and what the merge makes of it. -/

namespace Callisto.Hot

open Callisto.Library
open Callisto.Ws (strip)

variable {τ : Type}

theorem snapshotOf_set (snapshots : Snapshots τ) (key other : SnapshotKey) (snapshot : Snapshot τ) :
    snapshotOf (snapshots.set key snapshot) other = if key = other then snapshot else snapshotOf snapshots other := by
  unfold snapshotOf
  rw [Dict.get?_set]
  split <;> rfl

theorem latest_append {α : Type} (pick : HotCall τ → Option α) (calls : List (HotCall τ)) (call : HotCall τ) :
    latest pick (calls ++ [call]) = (pick call).or (latest pick calls) := by
  unfold latest
  rw [List.foldl_append]
  rfl

theorem latest_mem {α : Type} {pick : HotCall τ → Option α} {calls : List (HotCall τ)} {value : α}
    (found : latest pick calls = some value) : ∃ call ∈ calls, pick call = some value := by
  induction calls using List.reverseRecOn with
  | nil => cases found
  | append_singleton calls call ih =>
    rw [latest_append] at found
    cases picked : pick call with
    | some last =>
      rw [picked] at found
      exact ⟨call, List.mem_append_right _ List.mem_cons_self, picked.trans found⟩
    | none =>
      rw [picked] at found
      obtain ⟨old, member, same⟩ := ih found
      exact ⟨old, List.mem_append_left _ member, same⟩

section Calls

variable (lower : String → String)

theorem snapshotOf_hotCall (today : ℕ) (snapshots : Snapshots τ) (call : HotCall τ) (key : SnapshotKey) :
    snapshotOf (hotCall lower today snapshots call) key =
      if call.key lower = key then (snapshotOf snapshots key).apply lower today call else snapshotOf snapshots key := by
  unfold hotCall
  split
  case isTrue missing =>
    rw [Bool.and_eq_true, Option.isNone_iff_eq_none] at missing
    split
    case isTrue same =>
      subst same
      have absent : snapshotOf snapshots (call.key lower) = newSnapshot := by
        unfold snapshotOf
        rw [missing.2]
        rfl
      rw [absent]
      cases call with
      | recordOrderCancelled traderId mode orderId => rfl
      | upsertActiveOrder traderId mode orderId tracked => cases missing.1
      | recordOrderResolved traderId mode orderId status actualProfit updatedOn => cases missing.1
      | updateSignalCursor traderId mode createdAt signalId runtimeSequence => cases missing.1
    case isFalse => rfl
  case isFalse =>
    rw [snapshotOf_set]
    split
    case isTrue same => rw [same]
    case isFalse => rfl

theorem realize_orders (snapshot : Snapshot τ) (today : ℕ) (orderId status : String) (profit : ℚ) :
    (snapshot.realize today orderId status profit).activeOrders = snapshot.activeOrders := by
  unfold Snapshot.realize
  by_cases same : snapshot.dailyPnlDate = some today
  · simp only [if_pos same]
  · simp only [if_neg same]

theorem realize_cursor (snapshot : Snapshot τ) (today : ℕ) (orderId status : String) (profit : ℚ) :
    (snapshot.realize today orderId status profit).cursorCreatedAt = snapshot.cursorCreatedAt ∧
    (snapshot.realize today orderId status profit).cursorSignalId = snapshot.cursorSignalId ∧
    (snapshot.realize today orderId status profit).cursorRuntimeSequence = snapshot.cursorRuntimeSequence := by
  unfold Snapshot.realize
  by_cases same : snapshot.dailyPnlDate = some today
  · simp only [if_pos same, and_self]
  · simp only [if_neg same, and_self]

theorem apply_orders (today : ℕ) (snapshot : Snapshot τ) (call : HotCall τ) (id : String) :
    ((snapshot.apply lower today call).activeOrders.get? id).isSome =
      (if call.orderId = id then call.leaves else none).getD (snapshot.activeOrders.get? id).isSome := by
  have erased : ∀ orderId, ((snapshot.activeOrders.erase orderId).get? id).isSome =
      (if orderId = id then some false else none).getD (snapshot.activeOrders.get? id).isSome := by
    intro orderId
    rw [Dict.get?_erase]
    split <;> rfl
  cases call with
  | upsertActiveOrder traderId mode orderId tracked =>
    show ((if strip orderId = "" then snapshot
      else { snapshot with activeOrders := snapshot.activeOrders.set (strip orderId) tracked }).activeOrders.get? id).isSome =
      (if strip orderId = id then if strip orderId = "" then none else some true else none).getD (snapshot.activeOrders.get? id).isSome
    by_cases blank : strip orderId = ""
    · rw [if_pos blank, if_pos blank, ite_self]
      rfl
    · rw [if_neg blank, if_neg blank, Dict.get?_set]
      by_cases same : strip orderId = id
      · rw [if_pos same, if_pos same]
        rfl
      · rw [if_neg same, if_neg same]
        rfl
  | recordOrderResolved traderId mode orderId status actualProfit updatedOn =>
    simp only [Snapshot.apply, HotCall.orderId, HotCall.leaves]
    split
    · rw [realize_orders]
      exact erased (strip orderId)
    · exact erased (strip orderId)
  | recordOrderCancelled traderId mode orderId => exact erased (strip orderId)
  | updateSignalCursor traderId mode createdAt signalId runtimeSequence =>
    simp only [Snapshot.apply, HotCall.leaves, ite_self, Option.getD_none]

theorem hotCall_orders (today : ℕ) (snapshots : Snapshots τ) (call : HotCall τ) (key : SnapshotKey) (id : String) :
    ((snapshotOf (hotCall lower today snapshots call) key).activeOrders.get? id).isSome =
      (call.tracks lower key id).getD ((snapshotOf snapshots key).activeOrders.get? id).isSome := by
  rw [snapshotOf_hotCall]
  unfold HotCall.tracks
  by_cases own : call.key lower = key
  · simp only [own, true_and, if_true]
    exact apply_orders lower today _ call id
  · simp only [own, false_and, if_false]
    rfl

theorem apply_cursor (today : ℕ) {snapshot : Snapshot τ} {calls : List (HotCall τ)} {call : HotCall τ} {key : SnapshotKey}
    (own : call.key lower = key) (keeps : KeepsCursor lower calls key snapshot) :
    KeepsCursor lower (calls ++ [call]) key (snapshot.apply lower today call) := by
  have quiet : HotCall.setsCursor lower key call = none → HotCall.setsSequence lower key call = none →
      (snapshot.apply lower today call).cursorCreatedAt = snapshot.cursorCreatedAt ∧
      (snapshot.apply lower today call).cursorSignalId = snapshot.cursorSignalId ∧
      (snapshot.apply lower today call).cursorRuntimeSequence = snapshot.cursorRuntimeSequence →
      KeepsCursor lower (calls ++ [call]) key (snapshot.apply lower today call) := by
    intro noCursor noSequence same
    constructor
    · rw [latest_append, noCursor, same.1, same.2.1]
      exact keeps.position
    · rw [latest_append, noSequence, same.2.2]
      exact keeps.sequence
  cases call with
  | updateSignalCursor traderId mode createdAt signalId runtimeSequence =>
    have named : (traderId, modeKey lower mode) = key := own
    constructor
    · rw [latest_append]
      simp only [HotCall.setsCursor, if_pos named]
      intro position same
      exact Option.some.inj same
    · rw [latest_append]
      simp only [HotCall.setsSequence, if_pos named]
      intro sequence same
      cases runtimeSequence with
      | some given => exact same
      | none => exact keeps.sequence sequence same
  | upsertActiveOrder traderId mode orderId tracked =>
    apply quiet rfl rfl
    simp only [Snapshot.apply]
    split <;> exact ⟨rfl, rfl, rfl⟩
  | recordOrderResolved traderId mode orderId status actualProfit updatedOn =>
    apply quiet rfl rfl
    simp only [Snapshot.apply]
    split
    · exact realize_cursor _ _ _ _ _
    · exact ⟨rfl, rfl, rfl⟩
  | recordOrderCancelled traderId mode orderId => exact quiet rfl rfl ⟨rfl, rfl, rfl⟩

theorem hotCall_cursor (today : ℕ) {snapshots : Snapshots τ} {calls : List (HotCall τ)} (call : HotCall τ) {key : SnapshotKey}
    (keeps : KeepsCursor lower calls key (snapshotOf snapshots key)) :
    KeepsCursor lower (calls ++ [call]) key (snapshotOf (hotCall lower today snapshots call) key) := by
  rw [snapshotOf_hotCall]
  by_cases own : call.key lower = key
  · rw [if_pos own]
    exact apply_cursor lower today own keeps
  · rw [if_neg own]
    have noCursor : HotCall.setsCursor lower key call = none ∧ HotCall.setsSequence lower key call = none := by
      cases call with
      | updateSignalCursor traderId mode createdAt signalId runtimeSequence => exact ⟨if_neg own, if_neg own⟩
      | upsertActiveOrder traderId mode orderId tracked => exact ⟨rfl, rfl⟩
      | recordOrderResolved traderId mode orderId status actualProfit updatedOn => exact ⟨rfl, rfl⟩
      | recordOrderCancelled traderId mode orderId => exact ⟨rfl, rfl⟩
    constructor
    · rw [latest_append, noCursor.1]
      exact keeps.position
    · rw [latest_append, noCursor.2]
      exact keeps.sequence

end Calls

/-- The profits of a snapshot between calls: those recorded today, its total, and no profit without an order id. -/
structure Tallied (today : ℕ) (records : List (String × ℚ)) (snapshot : Snapshot τ) : Prop where
  day : ∀ day, snapshot.dailyPnlDate = some day → day ≤ today
  recorded : records ≠ [] → snapshot.dailyPnlDate = some today
  total : snapshot.dailyPnlDate = some today → snapshot.dailyRealizedPnl = snapshot.dailyRealizedOrderPnl.sumBy id + unnamed records
  orders : ∀ id profit, id ≠ "" → lastProfit records id = some profit → snapshot.dailyRealizedOrderPnl.get? id = some profit
  named : snapshot.dailyRealizedOrderPnl.get? "" = none

variable {today : ℕ} {records : List (String × ℚ)}

theorem Tallied.keeps {snapshot : Snapshot τ} (tallied : Tallied today records snapshot) :
    KeepsProfits today records snapshot :=
  ⟨tallied.recorded, fun some_ => tallied.total (tallied.recorded some_), tallied.orders⟩

theorem Tallied.of_same {snapshot other : Snapshot τ} (tallied : Tallied today records snapshot)
    (date : other.dailyPnlDate = snapshot.dailyPnlDate) (total : other.dailyRealizedPnl = snapshot.dailyRealizedPnl)
    (orders : other.dailyRealizedOrderPnl = snapshot.dailyRealizedOrderPnl) : Tallied today records other := by
  obtain ⟨day, recorded, whole, kept, named⟩ := tallied
  constructor
  · rw [date]
    exact day
  · rw [date]
    exact recorded
  · rw [date, total, orders]
    exact whole
  · rw [orders]
    exact kept
  · rw [orders]
    exact named

theorem newSnapshot_tallied (today : ℕ) : Tallied today [] (newSnapshot : Snapshot τ) := by
  constructor
  · intro day same
    cases same
  · exact fun some_ => absurd rfl some_
  · intro same
    cases same
  · intro id profit _ found
    cases found
  · rfl

theorem Tallied.nextDay {snapshot : Snapshot τ} (tallied : Tallied today records snapshot) :
    Tallied (today + 1) [] snapshot := by
  constructor
  · intro day same
    have := tallied.day day same
    omega
  · exact fun some_ => absurd rfl some_
  · intro same
    have := tallied.day _ same
    omega
  · intro id profit _ found
    cases found
  · exact tallied.named

theorem lastProfit_append (records : List (String × ℚ)) (record : String × ℚ) (id : String) :
    lastProfit (records ++ [record]) id = if record.1 = id then some record.2 else lastProfit records id := by
  unfold lastProfit
  rw [List.foldl_append]
  rfl

theorem unnamed_append (records : List (String × ℚ)) (record : String × ℚ) :
    unnamed (records ++ [record]) = unnamed records + if record.1 = "" then record.2 else 0 := by
  unfold unnamed
  rw [List.filter_append, List.map_append, List.sum_append]
  by_cases blank : record.1 = ""
  · simp [blank]
  · simp [blank]

theorem Tallied.realize {snapshot : Snapshot τ} (tallied : Tallied today records snapshot)
    (orderId status : String) (profit : ℚ) : Tallied today (records ++ [(orderId, profit)]) (snapshot.realize today orderId status profit) := by
  obtain ⟨day, recorded, total, orders, named⟩ := tallied
  unfold Snapshot.realize
  -- at a new day the records are empty, so that the reset loses nothing
  have reset : ∃ start : Snapshot τ, (if snapshot.dailyPnlDate = some today then snapshot else
      { snapshot with
        dailyRealizedPnl := 0
        dailyPnlDate := some today
        dailyRealizedOrderPnl := Dict.empty
        resolvedOrderStatuses := Dict.empty }) = start ∧ start.dailyPnlDate = some today ∧
      start.dailyRealizedPnl = start.dailyRealizedOrderPnl.sumBy id + unnamed records ∧
      (∀ id profit, id ≠ "" → lastProfit records id = some profit → start.dailyRealizedOrderPnl.get? id = some profit) ∧
      start.dailyRealizedOrderPnl.get? "" = none := by
    refine ⟨_, rfl, ?_⟩
    by_cases same : snapshot.dailyPnlDate = some today
    · rw [if_pos same]
      exact ⟨same, total same, orders, named⟩
    · rw [if_neg same]
      have nothing : records = [] := by
        by_contra some_
        exact same (recorded some_)
      rw [nothing]
      have none_ : ∀ id profit, id ≠ "" → lastProfit [] id = some profit → (Dict.empty : Dict String ℚ).get? id = some profit := by
        intro id profit _ found
        cases found
      refine ⟨rfl, ?_, none_, rfl⟩
      show (0 : ℚ) = (Dict.empty : Dict String ℚ).sumBy id + unnamed []
      rw [Dict.sumBy_empty]
      decide +kernel
  obtain ⟨start, same, date, sum, kept, blank⟩ := reset
  simp only [same]
  constructor
  · intro day some_
    exact le_of_eq (Option.some.inj (some_.symm.trans date))
  · exact fun _ => date
  · intro _
    rw [unnamed_append]
    by_cases anonymous : orderId = ""
    · simp only [anonymous, if_true, blank]
      rw [sum]
      ring
    · simp only [if_neg anonymous]
      rw [Dict.sumBy_set, sum]
      cases start.dailyRealizedOrderPnl.get? orderId with
      | none =>
        simp only [Option.elim_none, id]
        ring
      | some previous =>
        simp only [Option.elim_some, id]
        ring
  · intro other amount otherNamed found
    show (if orderId = "" then start.dailyRealizedOrderPnl else start.dailyRealizedOrderPnl.set orderId profit).get? other = some amount
    rw [lastProfit_append] at found
    by_cases own : orderId = other
    · rw [if_pos own] at found
      rw [if_neg (own ▸ otherNamed), Dict.get?_set, if_pos own]
      exact found
    · rw [if_neg own] at found
      have before := kept other amount otherNamed found
      split
      · exact before
      · rw [Dict.get?_set, if_neg own]
        exact before
  · show (if orderId = "" then start.dailyRealizedOrderPnl else start.dailyRealizedOrderPnl.set orderId profit).get? "" = none
    split
    case isTrue => exact blank
    case isFalse anonymous =>
      rw [Dict.get?_set, if_neg anonymous]
      exact blank

theorem hotCall_tallied (lower : String → String) {snapshots : Snapshots τ} {key : SnapshotKey}
    (call : HotCall τ) (tallied : Tallied today records (snapshotOf snapshots key)) :
    Tallied today (records ++ (call.recorded lower today key).toList) (snapshotOf (hotCall lower today snapshots call) key) := by
  rw [snapshotOf_hotCall]
  have quiet : ∀ snapshot : Snapshot τ, call.recorded lower today key = none → Tallied today records snapshot →
      Tallied today (records ++ (call.recorded lower today key).toList) snapshot := by
    intro snapshot nothing held
    rw [nothing]
    simpa using held
  by_cases own : call.key lower = key
  · rw [if_pos own]
    cases call with
    | recordOrderResolved traderId mode orderId status actualProfit updatedOn =>
      have named : (traderId, modeKey lower mode) = key := own
      simp only [Snapshot.apply]
      split
      case isTrue realized =>
        simp only [HotCall.recorded, named, realized, and_self, if_true, Option.toList_some]
        apply Tallied.realize
        exact tallied.of_same rfl rfl rfl
      case isFalse plain =>
        apply quiet
        · exact if_neg fun all => plain all.2
        · exact tallied.of_same rfl rfl rfl
    | upsertActiveOrder traderId mode orderId tracked =>
      simp only [Snapshot.apply]
      split
      · exact quiet _ rfl tallied
      · exact quiet _ rfl (tallied.of_same rfl rfl rfl)
    | recordOrderCancelled traderId mode orderId => exact quiet _ rfl (tallied.of_same rfl rfl rfl)
    | updateSignalCursor traderId mode createdAt signalId runtimeSequence => exact quiet _ rfl (tallied.of_same rfl rfl rfl)
  · rw [if_neg own]
    apply quiet _ _ tallied
    cases call with
    | recordOrderResolved traderId mode orderId status actualProfit updatedOn => exact if_neg fun all => own all.1
    | upsertActiveOrder traderId mode orderId tracked => rfl
    | recordOrderCancelled traderId mode orderId => rfl
    | updateSignalCursor traderId mode createdAt signalId runtimeSequence => rfl

end Callisto.Hot
