import Callisto.Hot.ReseedReads

/-! Reseeds over whole runs of a process. -/

namespace Callisto.Hot

open Callisto.Library Runs

variable {τ : Type}

theorem snapshotOf_absent {snapshots : Snapshots τ} {key : SnapshotKey} (absent : snapshots.get? key = none) :
    snapshotOf snapshots key = newSnapshot := by
  unfold snapshotOf
  rw [absent]
  rfl

theorem snapshotOf_held {snapshots : Snapshots τ} {key : SnapshotKey} {snapshot : Snapshot τ}
    (found : snapshots.get? key = some snapshot) : snapshotOf snapshots key = snapshot := by
  unfold snapshotOf
  rw [found]
  rfl

theorem snapshotOf_merged (day : ℕ) (old : Snapshots τ) {shadow : Snapshots τ} {key : SnapshotKey}
    (held : (shadow.get? key).isSome = true) : snapshotOf (mergeSnapshots day old shadow) key =
      mergePnl day (snapshotOf old key) { snapshotOf shadow key with
        activeOrders := (snapshotOf shadow key).activeOrders.setDefaults (snapshotOf old key).activeOrders } := by
  obtain ⟨read, found⟩ := Option.isSome_iff_exists.1 held
  rw [snapshotOf_held found]
  have merged : (mergeSnapshots day old shadow).get? key =
      (old.get? key).elim (shadow.get? key) fun value => (mergeSnapshot day value (shadow.get? key)).or (shadow.get? key) :=
    Dict.get?_mergeEntries _ old shadow key
  rw [found] at merged
  cases before : old.get? key with
  | some snapshot =>
    rw [before] at merged
    rw [snapshotOf_held before, snapshotOf_held merged]
  | none =>
    rw [before] at merged
    rw [snapshotOf_absent before, snapshotOf_held merged]
    rfl

theorem snapshotOf_unread (day : ℕ) (old : Snapshots τ) {shadow : Snapshots τ} {key : SnapshotKey} (absent : shadow.get? key = none) :
    snapshotOf (mergeSnapshots day old shadow) key =
      if (snapshotOf old key).preserved day then snapshotOf old key else newSnapshot := by
  have merged : (mergeSnapshots day old shadow).get? key =
      (old.get? key).elim (shadow.get? key) fun value => (mergeSnapshot day value (shadow.get? key)).or (shadow.get? key) :=
    Dict.get?_mergeEntries _ old shadow key
  rw [absent] at merged
  cases before : old.get? key with
  | some snapshot =>
    rw [before] at merged
    rw [snapshotOf_held before]
    have chosen : (mergeSnapshots day old shadow).get? key = if snapshot.preserved day then some snapshot else none := by
      rw [merged]
      show (if snapshot.preserved day then some snapshot else none).or none = _
      exact Option.or_none
    by_cases kept : snapshot.preserved day = true
    · rw [if_pos kept] at chosen ⊢
      exact snapshotOf_held chosen
    · rw [if_neg kept] at chosen ⊢
      exact snapshotOf_absent chosen
  | none =>
    rw [before] at merged
    rw [snapshotOf_absent before, snapshotOf_absent merged, ite_self]

theorem mergeProfit_foldl (entries : List (String × ℚ)) (merged : ℚ × Dict String ℚ) :
    (entries.foldl mergeProfit merged).2 = entries.foldl (fun known entry => known.setDefault entry.1 entry.2) merged.2 ∧
    (entries.foldl mergeProfit merged).1 - (entries.foldl mergeProfit merged).2.sumBy id = merged.1 - merged.2.sumBy id := by
  induction entries generalizing merged with
  | nil => exact ⟨rfl, rfl⟩
  | cons entry rest ih =>
    obtain ⟨orders, total⟩ := ih (mergeProfit merged entry)
    rw [List.foldl_cons, List.foldl_cons, orders]
    rw [orders] at total
    have step : (mergeProfit merged entry).2 = merged.2.setDefault entry.1 entry.2 ∧
        (mergeProfit merged entry).1 - (mergeProfit merged entry).2.sumBy id = merged.1 - merged.2.sumBy id := by
      unfold mergeProfit Dict.setDefault
      by_cases known : (merged.2.get? entry.1).isSome = true
      · rw [if_pos known, if_pos known]
        exact ⟨rfl, rfl⟩
      · rw [if_neg known, if_neg known]
        rw [Bool.not_eq_true, Option.isSome_eq_false_iff, Option.isNone_iff_eq_none] at known
        constructor
        · rfl
        · show merged.1 + entry.2 - (merged.2.set entry.1 entry.2).sumBy id = _
          rw [Dict.sumBy_set, known]
          simp only [Option.elim_none, id]
          ring
    rw [step.1] at total ⊢
    exact ⟨rfl, total.trans (by rw [← step.1]; exact step.2)⟩

theorem mergePnl_same (day : ℕ) (old shadow : Snapshot τ) :
    (mergePnl day old shadow).activeOrders = shadow.activeOrders ∧
    (mergePnl day old shadow).cursorCreatedAt = shadow.cursorCreatedAt ∧
    (mergePnl day old shadow).cursorSignalId = shadow.cursorSignalId ∧
    (mergePnl day old shadow).cursorRuntimeSequence = shadow.cursorRuntimeSequence := by
  unfold mergePnl
  by_cases ofDay : old.dailyPnlDate = some day
  · by_cases same : shadow.dailyPnlDate = some day
    · simp only [if_pos ofDay, if_pos same, and_self]
    · simp only [if_pos ofDay, if_neg same, and_self]
  · simp only [if_neg ofDay, and_self]

theorem mergePnl_profits (day : ℕ) {old shadow : Snapshot τ} (total : shadow.dailyRealizedPnl = shadow.dailyRealizedOrderPnl.sumBy id) :
    (mergePnl day old shadow).dailyRealizedPnl = (mergePnl day old shadow).dailyRealizedOrderPnl.sumBy id ∧
    ((mergePnl day old shadow).dailyPnlDate = if old.dailyPnlDate = some day then some day else shadow.dailyPnlDate) ∧
    ∀ id, (mergePnl day old shadow).dailyRealizedOrderPnl.get? id = if old.dailyPnlDate = some day then
      (if shadow.dailyPnlDate = some day then shadow.dailyRealizedOrderPnl.get? id else none).or (old.dailyRealizedOrderPnl.get? id)
      else shadow.dailyRealizedOrderPnl.get? id := by
  unfold mergePnl
  by_cases ofDay : old.dailyPnlDate = some day
  · simp only [if_pos ofDay]
    by_cases same : shadow.dailyPnlDate = some day
    · simp only [if_pos same]
      obtain ⟨orders, sum⟩ := mergeProfit_foldl old.dailyRealizedOrderPnl.entries (shadow.dailyRealizedPnl, shadow.dailyRealizedOrderPnl)
      refine ⟨?_, same, fun id => ?_⟩
      · have zero : shadow.dailyRealizedPnl - shadow.dailyRealizedOrderPnl.sumBy id = 0 := sub_eq_zero.2 total
        exact sub_eq_zero.1 (sum.trans zero)
      · rw [orders]
        exact Dict.get?_setDefaults _ _ id
    · simp only [if_neg same]
      obtain ⟨orders, sum⟩ := mergeProfit_foldl old.dailyRealizedOrderPnl.entries ((0 : ℚ), (Dict.empty : Dict String ℚ))
      refine ⟨?_, trivial, fun id => ?_⟩
      · have zero : (0 : ℚ) - (Dict.empty : Dict String ℚ).sumBy id = 0 := by rw [Dict.sumBy_empty, sub_zero]
        exact sub_eq_zero.1 (sum.trans zero)
      · rw [orders]
        exact Dict.get?_setDefaults _ _ id
  · simp only [if_neg ofDay]
    exact ⟨total, trivial, fun _ => trivial⟩

theorem lastProfit_mem {records : List (String × ℚ)} {id : String} {profit : ℚ} (found : lastProfit records id = some profit) :
    ∃ record ∈ records, record.1 = id := by
  induction records using List.reverseRecOn with
  | nil => cases found
  | append_singleton records record ih =>
    rw [lastProfit_append] at found
    by_cases own : record.1 = id
    · exact ⟨record, List.mem_append_right _ List.mem_cons_self, own⟩
    · rw [if_neg own] at found
      obtain ⟨old, member, same⟩ := ih found
      exact ⟨old, List.mem_append_left _ member, same⟩

theorem Tallied.merge {today day : ℕ} {records : List (String × ℚ)} {old shadow : Snapshot τ} (tallied : Tallied today records old)
    (total : shadow.dailyRealizedPnl = shadow.dailyRealizedOrderPnl.sumBy id)
    (date : ∀ other, shadow.dailyPnlDate = some other → other = day) (named : shadow.dailyRealizedOrderPnl.get? "" = none)
    (past : day ≤ today)
    (safe : records ≠ [] → day = today ∧ unnamed records = 0 ∧ ∀ record ∈ records,
      (shadow.dailyRealizedOrderPnl.get? record.1).all fun profit => lastProfit records record.1 = some profit) :
    Tallied today records (mergePnl day old shadow) := by
  obtain ⟨sum, dated, profits⟩ := @mergePnl_profits τ day old shadow total
  constructor
  · intro other same
    rw [dated] at same
    split at same
    · exact (Option.some.inj same) ▸ past
    · exact (date other same) ▸ past
  · intro some_
    obtain ⟨ofToday, -, -⟩ := safe some_
    rw [dated, ofToday, if_pos (tallied.recorded some_)]
  · intro _
    have nothing : unnamed records = 0 := by
      by_cases none_ : records = []
      · rw [none_]
        rfl
      · exact (safe none_).2.1
    rw [sum, nothing, add_zero]
  · intro id profit idNamed found
    obtain ⟨record, member, own⟩ := lastProfit_mem found
    have some_ : records ≠ [] := List.ne_nil_of_mem member
    obtain ⟨ofToday, -, same⟩ := safe some_
    have before := tallied.orders id profit idNamed found
    rw [profits, if_pos (ofToday ▸ tallied.recorded some_), before]
    split
    · have read := same record member
      rw [own, found] at read
      cases held : shadow.dailyRealizedOrderPnl.get? id with
      | none => rfl
      | some other =>
        rw [held, Option.all_some, decide_eq_true_eq] at read
        exact read.symm
    · rfl
  · rw [profits, tallied.named, named]
    split
    · split <;> rfl
    · rfl

section Runs

variable (lower : String → String)

/-- A running reseed: its shadow is what its queries read, and the snapshots are those at the read with the calls since. -/
structure Reading (watched : Watched τ) (reseed : Reseed τ) : Prop where
  day : reseed.today = watched.readDay
  past : watched.readDay ≤ watched.state.today
  tracked : ∀ key id, ((watched.snapshot key).activeOrders.get? id).isSome =
    (latest (HotCall.tracks lower key id) watched.since).getD ((snapshotOf watched.atRead key).activeOrders.get? id).isSome
  reads : Reads lower watched.table watched.readDay watched.positions watched.cursors reseed.shadow
  positions : reseed.phase = .orders → watched.positions = [] ∧ watched.cursors = Dict.empty
  cursors : reseed.phase = .positions → watched.cursors = Dict.empty

structure Consistent (watched : Watched τ) : Prop where
  tallied : ∀ key, Tallied watched.state.today (watched.records lower key) (watched.snapshot key)
  cursor : ∀ key, KeepsCursor lower watched.calls key (watched.snapshot key)
  reading : ∀ reseed, watched.state.reseed = some reseed → Reading lower watched reseed
  refreshed : watched.swapped = true → ∀ key, Refreshed lower watched key

variable {lower} {watched : Watched τ} {key : SnapshotKey}

theorem newProcess_consistent (today : ℕ) : Consistent lower (newProcess today : Watched τ) := by
  constructor
  · exact fun _ => newSnapshot_tallied today
  · intro key
    constructor
    · intro position same
      cases same
    · intro sequence same
      cases same
  · intro reseed same
    cases same
  · intro same
    cases same

theorem nextDay_consistent (held : Consistent lower watched) : Consistent lower (watchStep lower watched .nextDay) := by
  constructor
  · exact fun key => (held.tallied key).nextDay
  · exact held.cursor
  · intro reseed running
    have reading := held.reading reseed running
    constructor
    · exact reading.day
    · exact Nat.le_succ_of_le reading.past
    · exact reading.tracked
    · exact reading.reads
    · exact reading.positions
    · exact reading.cursors
  · intro same
    cases same

theorem call_consistent (held : Consistent lower watched) (call : HotCall τ) : Consistent lower (watchStep lower watched (.call call)) := by
  constructor
  · intro key
    have records : (watchStep lower watched (.call call)).records lower key =
        watched.records lower key ++ (call.recorded lower watched.state.today key).toList := by
      show (watched.todays ++ [call]).filterMap (HotCall.recorded lower watched.state.today key) = _
      rw [List.filterMap_append, List.filterMap_cons]
      cases call.recorded lower watched.state.today key <;> rfl
    rw [records]
    exact hotCall_tallied lower call (held.tallied key)
  · exact fun key => hotCall_cursor lower watched.state.today call (held.cursor key)
  · intro reseed running
    have reading := held.reading reseed running
    constructor
    · exact reading.day
    · exact reading.past
    · intro key id
      show ((snapshotOf (hotCall lower watched.state.today watched.state.snapshots call) key).activeOrders.get? id).isSome =
        (latest (HotCall.tracks lower key id) (watched.since ++ [call])).getD _
      rw [hotCall_orders, latest_append]
      have before := reading.tracked key id
      unfold Watched.snapshot at before
      rw [before]
      cases call.tracks lower key id <;> rfl
    · exact reading.reads
    · exact reading.positions
    · exact reading.cursors
  · intro same
    cases same

theorem readOrders_consistent (held : Consistent lower watched) (table : OrderTable τ) :
    Consistent lower (watchStep lower watched (.readOrders table)) := by
  unfold watchStep hotStep
  cases running : watched.state.reseed with
  | some reseed =>
    simp only
    constructor
    · exact held.tallied
    · exact held.cursor
    · intro other same
      have reading := held.reading other same
      exact ⟨reading.day, reading.past, reading.tracked, reading.reads, reading.positions, reading.cursors⟩
    · intro same
      cases same
  | none =>
    simp only
    constructor
    · exact held.tallied
    · exact held.cursor
    · intro reseed same
      cases same
      constructor
      · rfl
      · exact le_refl _
      · exact fun _ _ => rfl
      · exact readOrders_reads lower watched.state.today table
      · exact fun _ => ⟨rfl, rfl⟩
      · exact fun _ => rfl
    · intro same
      cases same

theorem latest_isSome {α : Type} {pick : HotCall τ → Option α} {calls : List (HotCall τ)} {call : HotCall τ} (member : call ∈ calls)
    (picks : (pick call).isSome = true) : (latest pick calls).isSome = true := by
  induction calls using List.reverseRecOn with
  | nil => cases member
  | append_singleton calls last ih =>
    rw [latest_append]
    cases picked : pick last with
    | some value => rfl
    | none =>
      cases List.mem_append.1 member with
      | inl before => exact ih before
      | inr new =>
        rw [List.mem_singleton.1 new, picked] at picks
        cases picks

theorem Consistent.frame {next : Watched τ} (held : Consistent lower watched) (today : next.state.today = watched.state.today)
    (snapshots : next.state.snapshots = watched.state.snapshots) (calls : next.calls = watched.calls)
    (todays : next.todays = watched.todays) (quiet : next.swapped = false)
    (reading : ∀ reseed, next.state.reseed = some reseed → Reading lower next reseed) : Consistent lower next := by
  constructor
  · intro key
    unfold Watched.records Watched.snapshot
    rw [today, snapshots, todays]
    exact held.tallied key
  · intro key
    unfold Watched.snapshot
    rw [snapshots, calls]
    exact held.cursor key
  · exact reading
  · intro same
    rw [quiet] at same
    cases same

theorem Consistent.unswapped (held : Consistent lower watched) : Consistent lower { watched with swapped := false } := by
  refine Consistent.frame held ?_ ?_ ?_ ?_ ?_ ?_
  iterate 5 rfl
  intro reseed running
  have reading := held.reading reseed running
  exact ⟨reading.day, reading.past, reading.tracked, reading.reads, reading.positions, reading.cursors⟩

theorem readPositions_consistent (held : Consistent lower watched) (positions : List (String × String)) :
    Consistent lower (watchStep lower watched (.readPositions positions)) := by
  have skip := held.unswapped
  unfold watchStep hotStep
  cases running : watched.state.reseed with
  | none => exact skip
  | some reseed =>
    obtain ⟨day, shadow, phase⟩ := reseed
    cases phase with
    | positions => exact skip
    | cursors => exact skip
    | orders =>
      have reading := held.reading _ running
      obtain ⟨noPositions, noCursors⟩ := reading.positions rfl
      refine Consistent.frame held ?_ ?_ ?_ ?_ ?_ ?_
      iterate 5 rfl
      intro next same
      cases same
      constructor
      · exact reading.day
      · exact reading.past
      · exact reading.tracked
      · have reads := reading.reads
        rw [noPositions, noCursors] at reads
        show Reads lower watched.table watched.readDay positions watched.cursors (readPositions lower shadow positions)
        rw [noCursors]
        exact reads.positions lower positions
      · intro same
        cases same
      · exact fun _ => noCursors

theorem readCursors_consistent (held : Consistent lower watched) (cursors : Dict String CursorRow) :
    Consistent lower (watchStep lower watched (.readCursors cursors)) := by
  have skip := held.unswapped
  unfold watchStep hotStep
  cases running : watched.state.reseed with
  | none => exact skip
  | some reseed =>
    obtain ⟨day, shadow, phase⟩ := reseed
    cases phase with
    | orders => exact skip
    | cursors => exact skip
    | positions =>
      have reading := held.reading _ running
      refine Consistent.frame held ?_ ?_ ?_ ?_ ?_ ?_
      iterate 5 rfl
      intro next same
      cases same
      constructor
      · exact reading.day
      · exact reading.past
      · exact reading.tracked
      · have reads := reading.reads
        rw [reading.cursors rfl] at reads
        exact reads.cursors lower cursors
      · intro same
        cases same
      · intro same
        cases same

theorem fail_consistent (held : Consistent lower watched) : Consistent lower (watchStep lower watched .fail) := by
  refine Consistent.frame held ?_ ?_ ?_ ?_ ?_ ?_
  iterate 5 rfl
  intro reseed same
  cases same

theorem merged_orders {reseed : Reseed τ} (reading : Reading lower watched reseed) (safe : OrdersSafe lower watched) (key : SnapshotKey)
    (id : String) :
    ((snapshotOf (mergeSnapshots reseed.today watched.state.snapshots reseed.shadow) key).activeOrders.get? id).isSome =
      (latest (HotCall.tracks lower key id) watched.since).getD (readActive lower watched.table key id) := by
  obtain ⟨untouched, closed⟩ := safe
  have tracked := reading.tracked key id
  have read := reading.reads.active key id
  -- what the merge shows is what was read or what is tracked now
  have either : ((snapshotOf (mergeSnapshots reseed.today watched.state.snapshots reseed.shadow) key).activeOrders.get? id).isSome =
      (readActive lower watched.table key id || ((watched.snapshot key).activeOrders.get? id).isSome) := by
    cases found : reseed.shadow.get? key with
    | some shadow =>
      rw [snapshotOf_merged _ _ (Option.isSome_iff_exists.2 ⟨shadow, found⟩), (mergePnl_same _ _ _).1, ← read]
      show ((((snapshotOf reseed.shadow key).activeOrders).setDefaults _).get? id).isSome = _
      rw [Dict.get?_setDefaults, Option.isSome_or]
      rfl
    | none =>
      rw [snapshotOf_absent found] at read
      rw [snapshotOf_unread _ _ found, ← read]
      split
      case isTrue => rfl
      case isFalse dropped =>
        have nothing : (watched.snapshot key).activeOrders.get? id = none := by
          by_contra some_
          obtain ⟨order, held⟩ := Option.ne_none_iff_exists'.1 some_
          have member := Dict.mem_of_find held
          apply dropped
          unfold Snapshot.preserved
          rw [Bool.or_eq_true, Bool.not_eq_true']
          left
          rw [List.isEmpty_eq_false_iff]
          exact List.ne_nil_of_mem member
        rw [nothing]
        rfl
  rw [either, tracked]
  cases last : latest (HotCall.tracks lower key id) watched.since with
  | none =>
    cases before : (snapshotOf watched.atRead key).activeOrders.get? id with
    | none => exact Bool.or_false _
    | some order =>
      cases present : watched.atRead.get? key with
      | none =>
        rw [snapshotOf_absent present] at before
        cases before
      | some snapshot =>
        rw [snapshotOf_held present] at before
        have active := untouched (key, snapshot) (Dict.mem_of_find present) (id, order) (Dict.mem_of_find before) last
        rw [active]
        rfl
  | some leaves =>
    cases leaves with
    | true => exact Bool.or_true _
    | false =>
      obtain ⟨call, member, own⟩ := latest_mem last
      unfold HotCall.tracks at own
      split at own
      case isFalse => cases own
      case isTrue same =>
        have unread := closed call member
        rw [same.1, same.2] at unread
        rw [unread last]
        rfl

theorem merged_profits {reseed : Reseed τ} (held : Consistent lower watched) (reading : Reading lower watched reseed)
    (safe : ∀ call ∈ watched.todays, ProfitsSafe lower watched (call.key lower)) :
    Tallied watched.state.today (watched.records lower key)
      (snapshotOf (mergeSnapshots reseed.today watched.state.snapshots reseed.shadow) key) := by
  have tallied := held.tallied key
  have safeHere : ProfitsSafe lower watched key := by
    intro some_
    obtain ⟨record, member⟩ := List.exists_mem_of_ne_nil _ some_
    obtain ⟨call, listed, records⟩ := List.mem_filterMap.1 member
    have own : call.key lower = key := by
      cases call with
      | recordOrderResolved traderId mode orderId status actualProfit updatedOn =>
        simp only [HotCall.recorded] at records
        split at records
        case isTrue all => exact all.1
        case isFalse => cases records
      | upsertActiveOrder traderId mode orderId tracked => cases records
      | recordOrderCancelled traderId mode orderId => cases records
      | updateSignalCursor traderId mode createdAt signalId runtimeSequence => cases records
    have there := safe call listed
    rw [own] at there
    exact there some_
  have present := reading.reads.present key
  cases found : reseed.shadow.get? key with
  | some shadow =>
    rw [found] at present
    rw [snapshotOf_merged _ _ (Option.isSome_iff_exists.2 ⟨shadow, found⟩), reading.day]
    apply tallied.merge
    · exact reading.reads.total key
    · exact reading.reads.date key
    · exact reading.reads.profit key ""
    · exact reading.past
    · intro some_
      obtain ⟨ofToday, rest⟩ := safeHere some_
      have seen : watched.isShadowed lower key = true := present.symm
      rw [if_pos seen] at rest
      refine ⟨ofToday, rest.1, fun record member => ?_⟩
      have same := rest.2 record member
      rw [← reading.reads.profit] at same
      exact same
  | none =>
    rw [found] at present
    rw [snapshotOf_unread _ _ found]
    split
    case isTrue => exact tallied
    case isFalse dropped =>
      have nothing : watched.records lower key = [] := by
        by_contra some_
        obtain ⟨-, rest⟩ := safeHere some_
        have unseen : watched.isShadowed lower key = false := present.symm
        rw [unseen, if_neg Bool.false_ne_true, ← reading.day] at rest
        exact dropped rest
      rw [nothing]
      exact newSnapshot_tallied _

theorem merged_cursor {reseed : Reseed τ} (held : Consistent lower watched) (reading : Reading lower watched reseed)
    (safe : ∀ call ∈ watched.calls, CursorSafe lower watched (call.key lower)) :
    KeepsCursor lower watched.calls key
      (snapshotOf (mergeSnapshots reseed.today watched.state.snapshots reseed.shadow) key) := by
  have keeps := held.cursor key
  have present := reading.reads.present key
  by_cases called : ∃ call ∈ watched.calls, call.key lower = key ∧ (HotCall.setsCursor lower key call).isSome = true
  case neg =>
    -- without a call neither part of the cursor is set
    have setting : ∀ call : HotCall τ, (HotCall.setsCursor lower key call).isSome = true ∨ (HotCall.setsSequence lower key call).isSome = true →
        call.key lower = key ∧ (HotCall.setsCursor lower key call).isSome = true := by
      intro call sets
      cases call with
      | updateSignalCursor traderId mode createdAt signalId runtimeSequence =>
        simp only [HotCall.setsCursor, HotCall.setsSequence, HotCall.key] at sets ⊢
        by_cases own : (traderId, modeKey lower mode) = key
        · rw [if_pos own]
          exact ⟨own, rfl⟩
        · rw [if_neg own, if_neg own] at sets
          cases sets with
          | inl none_ => cases none_
          | inr none_ => cases none_
      | upsertActiveOrder traderId mode orderId tracked => cases sets with
        | inl none_ => cases none_
        | inr none_ => cases none_
      | recordOrderResolved traderId mode orderId status actualProfit updatedOn => cases sets with
        | inl none_ => cases none_
        | inr none_ => cases none_
      | recordOrderCancelled traderId mode orderId => cases sets with
        | inl none_ => cases none_
        | inr none_ => cases none_
    constructor
    · intro position same
      obtain ⟨call, member, sets⟩ := latest_mem same
      have picks : (HotCall.setsCursor lower key call).isSome = true := by
        rw [sets]
        rfl
      exact absurd ⟨call, member, setting call (Or.inl picks)⟩ called
    · intro sequence same
      obtain ⟨call, member, sets⟩ := latest_mem same
      have picks : (HotCall.setsSequence lower key call).isSome = true := by
        rw [sets]
        rfl
      exact absurd ⟨call, member, setting call (Or.inr picks)⟩ called
  case pos =>
    obtain ⟨call, member, own, sets⟩ := called
    have safeHere := safe call member
    rw [own] at safeHere
    unfold CursorSafe at safeHere
    cases found : reseed.shadow.get? key with
    | some shadow =>
      rw [found] at present
      have seen : watched.isShadowed lower key = true := present.symm
      have inShadow : (reseed.shadow.get? key).isSome = true := by
        rw [found]
        rfl
      rw [if_pos seen] at safeHere
      rw [snapshotOf_merged _ _ inShadow]
      obtain ⟨-, created, signal, sequenceSame⟩ := mergePnl_same reseed.today (snapshotOf watched.state.snapshots key)
        { snapshotOf reseed.shadow key with
          activeOrders := (snapshotOf reseed.shadow key).activeOrders.setDefaults (snapshotOf watched.state.snapshots key).activeOrders }
      constructor
      · intro position same
        have row := safeHere.1
        rw [same, Option.all_some, decide_eq_true_eq] at row
        rw [created, signal]
        show ((snapshotOf reseed.shadow key).cursorCreatedAt, (snapshotOf reseed.shadow key).cursorSignalId) = position
        rw [reading.reads.created key inShadow, reading.reads.signal key inShadow]
        exact row
      · intro sequence same
        have row := safeHere.2
        rw [same, Option.all_some, decide_eq_true_eq] at row
        rw [sequenceSame]
        show (snapshotOf reseed.shadow key).cursorRuntimeSequence = some sequence
        rw [reading.reads.sequence key inShadow]
        exact row
    | none =>
      rw [found] at present
      have unseen : watched.isShadowed lower key = false := present.symm
      rw [unseen, if_neg Bool.false_ne_true, ← reading.day] at safeHere
      have kept : (snapshotOf watched.state.snapshots key).preserved reseed.today = true := safeHere (latest_isSome member sets)
      rw [snapshotOf_unread _ _ found, if_pos kept]
      exact keeps

theorem swap_consistent (held : Consistent lower watched) (safe : SwapSafe lower watched .swap) :
    Consistent lower (watchStep lower watched .swap) := by
  have skip := held.unswapped
  obtain ⟨orders, profits, cursors⟩ := safe
  cases running : watched.state.reseed with
  | none =>
    unfold watchStep hotStep
    simp only [running]
    exact skip
  | some reseed =>
    have reading := held.reading _ running
    obtain ⟨day, shadow, phase⟩ := reseed
    cases phase with
    | orders =>
      unfold watchStep hotStep
      simp only [running]
      exact skip
    | positions =>
      unfold watchStep hotStep
      simp only [running]
      exact skip
    | cursors =>
      unfold watchStep hotStep
      simp only [running]
      have tallied := fun key => @merged_profits τ lower watched key _ held reading profits
      have cursor := fun key => @merged_cursor τ lower watched key _ held reading cursors
      constructor
      · exact tallied
      · exact cursor
      · intro next same
        cases same
      · intro _ key
        constructor
        · exact merged_orders reading orders key
        · exact (tallied key).keeps
        · exact cursor key

theorem watchStep_consistent (held : Consistent lower watched) (event : HotEvent τ) (safe : SwapSafe lower watched event) :
    Consistent lower (watchStep lower watched event) := by
  cases event with
  | nextDay => exact nextDay_consistent held
  | call call => exact call_consistent held call
  | readOrders table => exact readOrders_consistent held table
  | readPositions positions => exact readPositions_consistent held positions
  | readCursors cursors => exact readCursors_consistent held cursors
  | swap => exact swap_consistent held safe
  | fail => exact fail_consistent held

/-- In a run whose swaps are all safe, every swap is a consistent refresh of every trader and mode. -/
theorem reseed_refreshes (lower : String → String) (today : ℕ) (events : List (HotEvent τ))
    (safe : Meets (watchStep lower) (SwapSafe lower) (newProcess today : Watched τ) events) :
    Always (watchStep lower) (fun watched => watched.swapped = true → ∀ key, Refreshed lower watched key) (newProcess today) events := by
  have consistent : Always (watchStep lower) (Consistent lower) (newProcess today) events :=
    Runs.always_of_meets (fun _ event held ok => watchStep_consistent held event ok) (newProcess_consistent today) safe
  exact fun first isPrefix => (consistent first isPrefix).refreshed

end Runs

section Examples

def soldRow : OrderRow Unit := ⟨"t", "live", "closed_win", some 1, 5, ()⟩

def openRow : OrderRow Unit := ⟨"t", "live", "open", some 0, 0, ()⟩

/-- A reseed that reads an order sold before and one still open, while the process opens another, sells it and moves its cursor. -/
def quietReseed : List (HotEvent Unit) :=
  [.call (.upsertActiveOrder "t" "live" "held" ()), .call (.recordOrderResolved "t" "live" "sold" "closed_win" 5 none),
    .readOrders ((Dict.empty.set ⟨"held", by decide⟩ openRow).set ⟨"sold", by decide⟩ soldRow),
    .call (.upsertActiveOrder "t" "live" "next" ()), .readPositions [("t", "live")],
    .call (.recordOrderResolved "t" "live" "next" "closed_loss" (-2) none), .call (.updateSignalCursor "t" "live" (some 3) (some "s") (some 7)),
    .readCursors (Dict.empty.set "t" ⟨some 3, some "s", some 7⟩), .swap]

theorem reseed_refreshes_quiet :
    Always (watchStep id) (fun watched => watched.swapped = true → ∀ key, Refreshed id watched key) (newProcess 1) quietReseed :=
  reseed_refreshes id 1 quietReseed (by decide +kernel)

def resolvedDuringReseed : List (HotEvent Unit) :=
  [.call (.upsertActiveOrder "t" "live" "held" ()), .readOrders (Dict.empty.set ⟨"held", by decide⟩ openRow),
    .call (.recordOrderResolved "t" "live" "held" "closed_win" 5 none), .readPositions [], .readCursors Dict.empty, .swap]

/-- The swap brings a resolved order back. -/
theorem resolved_order_returns :
    ¬Always (watchStep id) (fun watched => watched.swapped = true → ∀ key, Refreshed id watched key) (newProcess 1)
      resolvedDuringReseed := by
  intro refreshes
  have refreshed := refreshes _ List.prefix_rfl (by decide +kernel) ("t", "live")
  have tracked : (((run (watchStep id) (newProcess 1) resolvedDuringReseed).snapshot ("t", "live")).activeOrders.get? "held").isSome = true := by
    decide +kernel
  have gone : (latest (HotCall.tracks id ("t", "live") "held") (run (watchStep id) (newProcess 1) resolvedDuringReseed).since).getD
      (readActive id (run (watchStep id) (newProcess 1) resolvedDuringReseed).table ("t", "live") "held") = false := by
    decide +kernel
  have same := refreshed.orders "held"
  rw [tracked, gone] at same
  cases same

end Examples

end Callisto.Hot
