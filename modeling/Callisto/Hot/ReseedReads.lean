import Callisto.Hot.ReseedShadow

/-! The shadow snapshots that the reads build, against the rows that they read. -/

namespace Callisto.Hot

open Callisto.Library

variable {τ : Type}

section Rows

variable (lower : String → String)

theorem readRow_orders (today : ℕ) (snapshot : Snapshot τ) (orderId : OrderId) (row : OrderRow τ) (id : String) :
    (snapshot.readRow lower today orderId row).activeOrders.get? id =
      if isActiveStatus lower row.status ∧ orderId.1 = id then some row.tracked else snapshot.activeOrders.get? id := by
  have tracked : (if isActiveStatus lower row.status then
      { snapshot with activeOrders := snapshot.activeOrders.set orderId row.tracked } else snapshot).activeOrders.get? id =
      if isActiveStatus lower row.status ∧ orderId.1 = id then some row.tracked else snapshot.activeOrders.get? id := by
    by_cases active : isActiveStatus lower row.status
    · simp only [active, true_and]
      exact Dict.get?_set _ _ _ _
    · simp only [active, false_and, if_false]
  unfold Snapshot.readRow
  simp only
  split
  · exact tracked
  · exact tracked

theorem readRow_profits (today : ℕ) (snapshot : Snapshot τ) (orderId : OrderId) (row : OrderRow τ) :
    (snapshot.readRow lower today orderId row).dailyRealizedOrderPnl = (if row.realizedToday lower today then
      snapshot.dailyRealizedOrderPnl.set orderId row.actualProfit else snapshot.dailyRealizedOrderPnl) ∧
    (snapshot.readRow lower today orderId row).dailyRealizedPnl = (if row.realizedToday lower today then
      snapshot.dailyRealizedPnl + row.actualProfit else snapshot.dailyRealizedPnl) ∧
    (snapshot.readRow lower today orderId row).dailyPnlDate = if row.realizedToday lower today then some today
      else snapshot.dailyPnlDate := by
  unfold Snapshot.readRow
  by_cases active : isActiveStatus lower row.status
  · simp only [if_pos active]
    split <;> exact ⟨rfl, rfl, rfl⟩
  · simp only [if_neg active]
    split <;> exact ⟨rfl, rfl, rfl⟩

theorem readRow_cursor (today : ℕ) (snapshot : Snapshot τ) (orderId : OrderId) (row : OrderRow τ) :
    (snapshot.readRow lower today orderId row).cursorCreatedAt = snapshot.cursorCreatedAt ∧
    (snapshot.readRow lower today orderId row).cursorSignalId = snapshot.cursorSignalId ∧
    (snapshot.readRow lower today orderId row).cursorRuntimeSequence = snapshot.cursorRuntimeSequence := by
  unfold Snapshot.readRow
  by_cases active : isActiveStatus lower row.status
  · simp only [if_pos active]
    split <;> exact ⟨rfl, rfl, rfl⟩
  · simp only [if_neg active]
    split <;> exact ⟨rfl, rfl, rfl⟩

theorem snapshotOf_readOrder (today : ℕ) (shadow : Snapshots τ) (entry : OrderId × OrderRow τ) (key : SnapshotKey) :
    snapshotOf (readOrder lower today shadow entry) key = if entry.2.selected lower today ∧ entry.2.key lower = key then
      (snapshotOf shadow key).readRow lower today entry.1 entry.2 else snapshotOf shadow key := by
  unfold readOrder
  by_cases chosen : entry.2.selected lower today
  · rw [if_pos chosen, snapshotOf_set]
    by_cases own : entry.2.key lower = key
    · rw [if_pos own, if_pos ⟨chosen, own⟩, own]
    · rw [if_neg own, if_neg fun both => own both.2]
  · rw [if_neg chosen, if_neg fun both => chosen both.1]

theorem readOrder_isSome (today : ℕ) (shadow : Snapshots τ) (entry : OrderId × OrderRow τ) (key : SnapshotKey) :
    ((readOrder lower today shadow entry).get? key).isSome =
      ((shadow.get? key).isSome || decide (entry.2.key lower = key ∧ entry.2.selected lower today)) := by
  unfold readOrder
  by_cases chosen : entry.2.selected lower today
  · rw [if_pos chosen, Dict.get?_set]
    by_cases own : entry.2.key lower = key
    · simp [own, chosen]
    · simp [own]
  · simp [chosen]

theorem readOrders_active (today : ℕ) (table : OrderTable τ) (key : SnapshotKey) (orderId : OrderId) :
    ((snapshotOf (readOrders lower today table) key).activeOrders.get? orderId.1).isSome =
      (table.get? orderId).any fun row => row.key lower = key ∧ isActiveStatus lower row.status := by
  have spec : ∀ (shadow : Snapshots τ) (entry : OrderId × OrderRow τ) (orderId : OrderId),
      ((snapshotOf (readOrder lower today shadow entry) key).activeOrders.get? orderId.1).isSome = if entry.1 = orderId then
        (decide (entry.2.key lower = key ∧ isActiveStatus lower entry.2.status) ||
          ((snapshotOf shadow key).activeOrders.get? orderId.1).isSome)
      else ((snapshotOf shadow key).activeOrders.get? orderId.1).isSome := by
    intro shadow entry orderId
    rw [snapshotOf_readOrder]
    by_cases active : isActiveStatus lower entry.2.status
    · have chosen : entry.2.selected lower today := Or.inl active
      by_cases own : entry.2.key lower = key
      · rw [if_pos ⟨chosen, own⟩, readRow_orders]
        by_cases same : entry.1 = orderId
        · simp [same, active, own]
        · simp [same, active, Subtype.ext_iff.not.1 same]
      · simp [own]
    · split
      · rw [readRow_orders]
        simp [active]
      · simp [active]
  have folded := @Dict.foldl_observed _ _ _ _ _ (fun shadow orderId => ((snapshotOf shadow key).activeOrders.get? orderId.1).isSome)
    (readOrder lower today) (fun row seen => decide (row.key lower = key ∧ isActiveStatus lower row.status) || seen) spec
    _ table.nodup Dict.empty orderId
  refine folded.trans ?_
  show (table.get? orderId).elim false _ = _
  cases table.get? orderId with
  | none => rfl
  | some row => exact Bool.or_false _

theorem readOrders_profit (today : ℕ) (table : OrderTable τ) (key : SnapshotKey) (orderId : OrderId) :
    (snapshotOf (readOrders lower today table) key).dailyRealizedOrderPnl.get? orderId.1 =
      ((table.get? orderId).filter fun row => row.key lower = key ∧ row.realizedToday lower today).map OrderRow.actualProfit := by
  have spec : ∀ (shadow : Snapshots τ) (entry : OrderId × OrderRow τ) (orderId : OrderId),
      (snapshotOf (readOrder lower today shadow entry) key).dailyRealizedOrderPnl.get? orderId.1 = if entry.1 = orderId then
        (if entry.2.key lower = key ∧ entry.2.realizedToday lower today then some entry.2.actualProfit
          else (snapshotOf shadow key).dailyRealizedOrderPnl.get? orderId.1)
      else (snapshotOf shadow key).dailyRealizedOrderPnl.get? orderId.1 := by
    intro shadow entry orderId
    rw [snapshotOf_readOrder]
    by_cases realized : entry.2.realizedToday lower today
    · have chosen : entry.2.selected lower today := Or.inr realized
      by_cases own : entry.2.key lower = key
      · rw [if_pos ⟨chosen, own⟩, (readRow_profits lower today _ entry.1 entry.2).1, if_pos realized, Dict.get?_set]
        by_cases same : entry.1 = orderId
        · simp [same, realized, own]
        · simp [same, Subtype.ext_iff.not.1 same]
      · simp [own]
    · split
      · rw [(readRow_profits lower today _ entry.1 entry.2).1, if_neg realized]
        simp [realized]
      · simp [realized]
  have folded := @Dict.foldl_observed _ _ _ _ _ (fun shadow orderId => (snapshotOf shadow key).dailyRealizedOrderPnl.get? orderId.1)
    (readOrder lower today) (fun row seen => if row.key lower = key ∧ row.realizedToday lower today then some row.actualProfit else seen) spec
    _ table.nodup Dict.empty orderId
  refine folded.trans ?_
  show (table.get? orderId).elim none _ = _
  cases table.get? orderId with
  | none => rfl
  | some row =>
    show (if row.key lower = key ∧ row.realizedToday lower today then some row.actualProfit else none) = _
    rw [Option.filter_some]
    split <;> simp_all

theorem readOrders_isSome (today : ℕ) (table : OrderTable τ) (key : SnapshotKey) :
    ((readOrders lower today table).get? key).isSome =
      table.values.any fun row => row.key lower = key ∧ row.selected lower today := by
  have search : ∀ (entries : List (OrderId × OrderRow τ)) (shadow : Snapshots τ),
      ((entries.foldl (readOrder lower today) shadow).get? key).isSome =
        ((shadow.get? key).isSome || (entries.map Prod.snd).any fun row => row.key lower = key ∧ row.selected lower today) := by
    intro entries
    induction entries with
    | nil =>
      intro shadow
      exact (Bool.or_false _).symm
    | cons entry rest ih =>
      intro shadow
      rw [List.foldl_cons, ih, readOrder_isSome, List.map_cons, List.any_cons, Bool.or_assoc]
  exact search table.entries Dict.empty

/-- A snapshot of rows: the total is over the profits, the date is the day of the read, nothing stands under the empty id, and there is
no cursor. -/
structure OfRows (today : ℕ) (snapshot : Snapshot τ) : Prop where
  total : snapshot.dailyRealizedPnl = snapshot.dailyRealizedOrderPnl.sumBy id
  date : ∀ day, snapshot.dailyPnlDate = some day → day = today
  order : snapshot.activeOrders.get? "" = none
  profit : snapshot.dailyRealizedOrderPnl.get? "" = none
  created : snapshot.cursorCreatedAt = none
  signal : snapshot.cursorSignalId = none
  sequence : snapshot.cursorRuntimeSequence = none

theorem newSnapshot_ofRows (today : ℕ) : OfRows today (newSnapshot : Snapshot τ) := by
  constructor
  case date =>
    intro day same
    cases same
  all_goals rfl

theorem OfRows.readRow {today : ℕ} {snapshot : Snapshot τ} (ofRows : OfRows today snapshot) {orderId : OrderId} (row : OrderRow τ)
    (missing : snapshot.dailyRealizedOrderPnl.get? orderId = none) : OfRows today (snapshot.readRow lower today orderId row) := by
  obtain ⟨profits, sum, day⟩ := readRow_profits lower today snapshot orderId row
  obtain ⟨created, signal, sequence⟩ := readRow_cursor lower today snapshot orderId row
  constructor
  · rw [profits, sum]
    split
    · rw [Dict.sumBy_set, missing, ofRows.total]
      simp only [Option.elim_none, id, sub_zero]
    · exact ofRows.total
  · rw [day]
    split
    · exact fun other same => (Option.some.inj same).symm
    · exact ofRows.date
  · rw [readRow_orders, if_neg fun both => orderId.2 both.2]
    exact ofRows.order
  · rw [profits]
    split
    · rw [Dict.get?_set, if_neg orderId.2]
      exact ofRows.profit
    · exact ofRows.profit
  · exact created.trans ofRows.created
  · exact signal.trans ofRows.signal
  · exact sequence.trans ofRows.sequence

theorem readOrders_ofRows (today : ℕ) (table : OrderTable τ) (key : SnapshotKey) :
    OfRows today (snapshotOf (readOrders lower today table) key) := by
  have search : ∀ (entries : List (OrderId × OrderRow τ)) (shadow : Snapshots τ), (entries.map Prod.fst).Nodup →
      (∀ entry ∈ entries, (snapshotOf shadow key).dailyRealizedOrderPnl.get? entry.1.1 = none) →
      OfRows today (snapshotOf shadow key) → OfRows today (snapshotOf (entries.foldl (readOrder lower today) shadow) key) := by
    intro entries
    induction entries with
    | nil => exact fun shadow _ _ held => held
    | cons entry rest ih =>
      intro shadow nodup fresh held
      obtain ⟨own, nodupRest⟩ := List.nodup_cons.1 nodup
      rw [List.foldl_cons]
      apply ih _ nodupRest
      · intro other member
        have before := fresh other (List.mem_cons_of_mem _ member)
        have different : ¬entry.1.1 = other.1.1 := by
          intro same
          have equal : entry.1 = other.1 := Subtype.ext same
          exact own (equal ▸ List.mem_map_of_mem member)
        rw [snapshotOf_readOrder]
        split
        · rw [(readRow_profits lower today _ entry.1 entry.2).1]
          split
          · rw [Dict.get?_set, if_neg different]
            exact before
          · exact before
        · exact before
      · rw [snapshotOf_readOrder]
        split
        · exact held.readRow lower entry.2 (fresh entry List.mem_cons_self)
        · exact held
  exact search table.entries Dict.empty table.nodup (fun _ _ => rfl) (newSnapshot_ofRows today)

/-- The shadow of a running reseed, with what its queries read. -/
structure Reads (table : OrderTable τ) (day : ℕ) (positions : List (String × String)) (cursors : Dict String CursorRow)
    (shadow : Snapshots τ) : Prop where
  present : ∀ key, (shadow.get? key).isSome = shadowed lower table day positions key
  active : ∀ key id, ((snapshotOf shadow key).activeOrders.get? id).isSome = readActive lower table key id
  profit : ∀ key id, (snapshotOf shadow key).dailyRealizedOrderPnl.get? id = readProfit lower table day key id
  total : ∀ key, (snapshotOf shadow key).dailyRealizedPnl = (snapshotOf shadow key).dailyRealizedOrderPnl.sumBy id
  date : ∀ key other, (snapshotOf shadow key).dailyPnlDate = some other → other = day
  created : ∀ key, (shadow.get? key).isSome = true →
    (snapshotOf shadow key).cursorCreatedAt = ((cursors.get? key.1).getD ⟨none, none, none⟩).lastSignalCreatedAt
  signal : ∀ key, (shadow.get? key).isSome = true →
    (snapshotOf shadow key).cursorSignalId = ((cursors.get? key.1).getD ⟨none, none, none⟩).lastSignalId.filter (· ≠ "")
  sequence : ∀ key, (shadow.get? key).isSome = true →
    (snapshotOf shadow key).cursorRuntimeSequence = ((cursors.get? key.1).getD ⟨none, none, none⟩).lastRuntimeSequence

theorem readOrders_reads (day : ℕ) (table : OrderTable τ) : Reads lower table day [] Dict.empty (readOrders lower day table) := by
  constructor
  · intro key
    rw [readOrders_isSome]
    exact (Bool.or_false _).symm
  · intro key id
    unfold readActive
    split
    case isTrue named => exact readOrders_active lower day table key ⟨id, named⟩
    case isFalse blank =>
      rw [not_not.1 blank, (readOrders_ofRows lower day table key).order]
      rfl
  · intro key id
    unfold readProfit
    split
    case isTrue named => exact readOrders_profit lower day table key ⟨id, named⟩
    case isFalse blank =>
      rw [not_not.1 blank]
      exact (readOrders_ofRows lower day table key).profit
  · exact fun key => (readOrders_ofRows lower day table key).total
  · exact fun key => (readOrders_ofRows lower day table key).date
  · exact fun key _ => (readOrders_ofRows lower day table key).created
  · exact fun key _ => (readOrders_ofRows lower day table key).signal
  · exact fun key _ => (readOrders_ofRows lower day table key).sequence

theorem readPositions_same (shadow : Snapshots τ) (positions : List (String × String)) (key : SnapshotKey) :
    snapshotOf (readPositions lower shadow positions) key = snapshotOf shadow key ∧
    ((readPositions lower shadow positions).get? key).isSome =
      ((shadow.get? key).isSome || positions.any fun position => (position.1, modeKey lower position.2) = key) := by
  unfold readPositions
  induction positions generalizing shadow with
  | nil => exact ⟨rfl, (Bool.or_false _).symm⟩
  | cons position rest ih =>
    rw [List.foldl_cons, (ih _).1, (ih _).2]
    constructor
    · rw [snapshotOf_set]
      split
      case isTrue same => rw [same]
      case isFalse => rfl
    · rw [Dict.get?_set, List.any_cons, ← Bool.or_assoc]
      by_cases same : (position.1, modeKey lower position.2) = key
      · simp [same]
      · simp [same]

theorem Reads.positions {table : OrderTable τ} {day : ℕ} {shadow : Snapshots τ} (reads : Reads lower table day [] Dict.empty shadow)
    (positions : List (String × String)) : Reads lower table day positions Dict.empty (readPositions lower shadow positions) := by
  have same := fun key => (readPositions_same lower shadow positions key).1
  have empty : ∀ key, (snapshotOf shadow key).cursorCreatedAt = none ∧ (snapshotOf shadow key).cursorSignalId = none ∧
      (snapshotOf shadow key).cursorRuntimeSequence = none := by
    intro key
    cases held : (shadow.get? key).isSome with
    | true => exact ⟨reads.created key held, reads.signal key held, reads.sequence key held⟩
    | false =>
      have absent : snapshotOf shadow key = newSnapshot := by
        unfold snapshotOf
        rw [Option.isSome_eq_false_iff, Option.isNone_iff_eq_none] at held
        rw [held]
        rfl
      rw [absent]
      exact ⟨rfl, rfl, rfl⟩
  constructor
  · intro key
    rw [(readPositions_same lower shadow positions key).2, reads.present]
    unfold shadowed
    rw [Bool.or_assoc, List.any_nil, Bool.false_or]
  · intro key id
    rw [same]
    exact reads.active key id
  · intro key id
    rw [same]
    exact reads.profit key id
  · intro key
    rw [same]
    exact reads.total key
  · intro key other
    rw [same]
    exact reads.date key other
  · intro key _
    rw [same]
    exact (empty key).1
  · intro key _
    rw [same]
    exact (empty key).2.1
  · intro key _
    rw [same]
    exact (empty key).2.2

theorem snapshotOf_readCursors (shadow : Snapshots τ) (cursors : Dict String CursorRow) {key : SnapshotKey}
    (held : (shadow.get? key).isSome = true) : snapshotOf (readCursors shadow cursors) key =
      (cursors.get? key.1).elim (snapshotOf shadow key) (snapshotOf shadow key).withCursor := by
  obtain ⟨snapshot, found⟩ := Option.isSome_iff_exists.1 held
  unfold snapshotOf readCursors
  rw [Dict.get?_mapValues, found]
  rfl

theorem snapshotOf_readCursors_absent (shadow : Snapshots τ) (cursors : Dict String CursorRow) {key : SnapshotKey}
    (absent : shadow.get? key = none) : snapshotOf (readCursors shadow cursors) key = snapshotOf shadow key := by
  unfold snapshotOf readCursors
  rw [Dict.get?_mapValues, absent]
  rfl

theorem Reads.cursors {table : OrderTable τ} {day : ℕ} {positions : List (String × String)} {shadow : Snapshots τ}
    (reads : Reads lower table day positions Dict.empty shadow) (cursors : Dict String CursorRow) :
    Reads lower table day positions cursors (readCursors shadow cursors) := by
  have present : ∀ key, ((readCursors shadow cursors).get? key).isSome = (shadow.get? key).isSome := by
    intro key
    unfold readCursors
    rw [Dict.get?_mapValues, Option.isSome_map]
  have rest : ∀ key, (snapshotOf (readCursors shadow cursors) key).activeOrders = (snapshotOf shadow key).activeOrders ∧
      (snapshotOf (readCursors shadow cursors) key).dailyRealizedOrderPnl = (snapshotOf shadow key).dailyRealizedOrderPnl ∧
      (snapshotOf (readCursors shadow cursors) key).dailyRealizedPnl = (snapshotOf shadow key).dailyRealizedPnl ∧
      (snapshotOf (readCursors shadow cursors) key).dailyPnlDate = (snapshotOf shadow key).dailyPnlDate := by
    intro key
    cases found : shadow.get? key with
    | none =>
      rw [snapshotOf_readCursors_absent shadow cursors found]
      exact ⟨rfl, rfl, rfl, rfl⟩
    | some snapshot =>
      rw [snapshotOf_readCursors shadow cursors (Option.isSome_iff_exists.2 ⟨snapshot, found⟩)]
      cases cursors.get? key.1 <;> exact ⟨rfl, rfl, rfl, rfl⟩
  constructor
  · intro key
    rw [present]
    exact reads.present key
  · intro key id
    rw [(rest key).1]
    exact reads.active key id
  · intro key id
    rw [(rest key).2.1]
    exact reads.profit key id
  · intro key
    rw [(rest key).2.1, (rest key).2.2.1]
    exact reads.total key
  · intro key other
    rw [(rest key).2.2.2]
    exact reads.date key other
  all_goals
    intro key held
    rw [present] at held
    rw [snapshotOf_readCursors shadow cursors held]
    cases cursors.get? key.1 with
    | some row => rfl
    | none => first | exact reads.created key held | exact reads.signal key held | exact reads.sequence key held

end Rows

end Callisto.Hot
