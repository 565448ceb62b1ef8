import Mathlib.Data.List.Dedup
import Mathlib.Tactic.Ring
import Callisto.MarketData.BookView

/-! The view replays the recorded books as the replay from memory does exactly if no token with books is asked for twice, and no token
has two different books of one time. -/

namespace Callisto.MarketData

open Callisto.Library Callisto.Library.TimeSeries

variable {token : String}

namespace View

variable (view : View)

def snapshotsOf (token : String) : List BookSnapshot :=
  ((rowsOf token (view.files token)).filterMap (entryOf token view.startUs view.endUs)).map Prod.snd

theorem entryOf_some {startUs endUs : ℤ} {row : BookRow} {entry : ℤ × BookSnapshot}
    (found : entryOf token startUs endUs row = some entry) :
    entry = (entry.2.observedAt, entry.2) ∧ entry.2.tokenId = token ∧ startUs ≤ entry.1 ∧ entry.1 ≤ endUs := by
  unfold entryOf at found
  have ⟨observed, known, inside⟩ := Option.bind_eq_some_iff.1 found
  split_ifs at inside with bounds
  cases inside
  refine ⟨?_, rfl, bounds⟩
  unfold rowToBookSnapshot
  rw [known]
  rfl

theorem entries_eq (token : String) : (rowsOf token (view.files token)).filterMap (entryOf token view.startUs view.endUs) =
    (view.snapshotsOf token).map fun snapshot => (snapshot.observedAt, snapshot) := by
  unfold snapshotsOf
  rw [List.map_map]
  refine (List.map_id _).symm.trans (List.map_congr_left fun entry member => ?_)
  have ⟨row, _, found⟩ := List.mem_filterMap.1 member
  exact (entryOf_some found).1

theorem tokenId_of_mem {snapshot : BookSnapshot} (member : snapshot ∈ view.snapshotsOf token) :
    snapshot.tokenId = token ∧ view.startUs ≤ snapshot.observedAt ∧ snapshot.observedAt ≤ view.endUs := by
  have ⟨entry, inside, same⟩ := List.mem_map.1 member
  have ⟨row, _, found⟩ := List.mem_filterMap.1 inside
  have ⟨paired, named, bounds⟩ := entryOf_some found
  rw [paired] at bounds
  exact same ▸ ⟨named, bounds⟩

def booksOf (token : String) : List BookSnapshot := (view.seriesFor token).map Prod.snd

theorem seriesFor_perm (token : String) :
    (view.seriesFor token).Perm ((view.snapshotsOf token).map fun snapshot => (snapshot.observedAt, snapshot)) := by
  rw [← entries_eq]
  exact finalize_perm _

theorem seriesFor_eq (token : String) : view.seriesFor token = (view.booksOf token).map fun snapshot => (snapshot.observedAt, snapshot) := by
  unfold booksOf
  rw [List.map_map]
  refine (List.map_id _).symm.trans (List.map_congr_left fun entry member => ?_)
  have ⟨snapshot, _, same⟩ := List.mem_map.1 ((view.seriesFor_perm token).mem_iff.1 member)
  exact same ▸ rfl

theorem booksOf_perm (token : String) : (view.booksOf token).Perm (view.snapshotsOf token) := by
  have perm := (view.seriesFor_perm token).map Prod.snd
  have same : (Prod.snd ∘ fun snapshot : BookSnapshot => (snapshot.observedAt, snapshot)) = id := rfl
  rw [List.map_map, same, List.map_id] at perm
  exact perm

theorem booksOf_sorted (token : String) : (view.booksOf token).Pairwise fun one other => one.observedAt ≤ other.observedAt := by
  have sorted : (view.seriesFor token).Pairwise fun one other => one.1 ≤ other.1 := finalize_sorted _
  rw [seriesFor_eq, List.pairwise_map] at sorted
  exact sorted

theorem bookAt_eq (token : String) (time : ℤ) :
    view.bookAt token time none = ((view.booksOf token).filter fun snapshot => snapshot.observedAt ≤ time).getLast? := by
  have sorted : (view.seriesFor token).Pairwise fun one other => one.1 ≤ other.1 := finalize_sorted _
  unfold bookAt
  rw [asOf_eq sorted, seriesFor_eq, List.filter_map, List.getLast?_map, Option.map_map]
  exact congrFun Option.map_id _

def streamsOf (tokens : List String) : List (ℕ × List (ℤ × BookSnapshot)) := ((tokens.map view.seriesFor).zipIdx).map Prod.swap

theorem merged_eq (tokens : List String) : view.merged tokens = (mergeStreams Prod.fst (view.streamsOf tokens)).map Prod.snd := by
  unfold merged streamsOf
  have whole : (fun token => iterRange (view.seriesFor token) view.startUs view.endUs) = view.seriesFor := by
    funext token
    apply iterRange_eq
    intro entry member
    have ⟨snapshot, held, same⟩ := List.mem_map.1 ((view.seriesFor_perm token).mem_iff.1 member)
    exact same ▸ (view.tokenId_of_mem held).2
  rw [whole, orderedMerge_eq]

theorem iterBooks_perm (tokens : List String) : (view.iterBooks (some tokens)).Perm (tokens.flatMap view.snapshotsOf) := by
  have perm := (mergeStreams_perm Prod.fst (indexed_nodup (tokens.map view.seriesFor))).map Prod.snd
  rw [indexed_content] at perm
  have books : (tokens.map view.seriesFor).flatten.map Prod.snd = tokens.flatMap view.booksOf := by
    rw [List.map_flatten, List.map_map]
    rfl
  rw [books] at perm
  unfold iterBooks
  rw [Option.getD_some, merged_eq]
  exact perm.trans (List.Perm.flatMap_left tokens fun token _ => view.booksOf_perm token)

theorem iterBooks_sorted (tokens : List String) :
    (view.iterBooks (some tokens)).Pairwise fun one other => one.observedAt ≤ other.observedAt := by
  have each : ∀ stream ∈ view.streamsOf tokens, stream.2.Pairwise fun one other => one.1 ≤ other.1 := by
    intro stream member
    have ⟨entry, inside, same⟩ := List.mem_map.1 member
    have ⟨token, _, series⟩ := List.mem_map.1 (List.fst_mem_of_mem_zipIdx inside)
    have sorted : (view.seriesFor token).Pairwise fun one other => one.1 ≤ other.1 := finalize_sorted _
    rw [series] at sorted
    exact same ▸ sorted
  have sorted : ((mergeStreams Prod.fst (view.streamsOf tokens)).map Prod.snd).Pairwise fun one other => one.1 ≤ other.1 :=
    (mergeStreams_sorted_iff (fun _ _ below => below) (indexed_nodup (tokens.map view.seriesFor))).2 each
  have paired : view.merged tokens = (view.iterBooks (some tokens)).map fun snapshot => (snapshot.observedAt, snapshot) := by
    unfold iterBooks
    rw [Option.getD_some, List.map_map]
    refine (List.map_id _).symm.trans (List.map_congr_left fun entry member => ?_)
    rw [merged_eq] at member
    have held := (mergeStreams_perm Prod.fst (indexed_nodup (tokens.map view.seriesFor))).mem_iff.1 member
    rw [indexed_content] at held
    have ⟨series, known, inside⟩ := List.mem_flatten.1 held
    have ⟨token, _, same⟩ := List.mem_map.1 known
    rw [← same, seriesFor_eq] at inside
    have ⟨snapshot, _, pair⟩ := List.mem_map.1 inside
    exact pair ▸ rfl
  rw [← merged_eq, paired, List.pairwise_map] at sorted
  exact sorted

end View

structure SameRows (first second : View) : Prop where
  requested : first.requested = second.requested
  startUs : first.startUs = second.startUs
  endUs : first.endUs = second.endUs
  rows : ∀ token, (rowsOf token (first.files token)).Perm (rowsOf token (second.files token))

/-- The view yields each book of the tokens once, in the order of time, agrees with the replay from memory of the same books, and looks up
the last book yielded; none of it depends on the files. -/
structure MatchesReplay (view : View) (tokens : List String) : Prop where
  once : (view.iterBooks (some tokens)).Perm (tokens.dedup.flatMap view.snapshotsOf)
  ordered : (view.iterBooks (some tokens)).Pairwise fun one other => one.observedAt ≤ other.observedAt
  replayed : ∀ memory : InMemoryBookReplay, memory.snapshots.Perm (tokens.dedup.flatMap view.snapshotsOf) → ∀ token ∈ tokens,
    (view.iterBooks (some tokens)).filter (fun snapshot => snapshot.tokenId = token) = memory.byToken token ∧
      ∀ time, view.startUs ≤ time → time ≤ view.endUs → view.bookAt token time none = memory.snapshotAt token time
  last : ∀ token ∈ tokens, ∀ time, view.startUs ≤ time → time ≤ view.endUs → view.bookAt token time none =
    ((view.iterBooks (some tokens)).filter fun snapshot => snapshot.tokenId = token ∧ snapshot.observedAt ≤ time).getLast?
  past : ∀ token time, ∀ snapshot ∈ view.bookAt token time none, snapshot.observedAt ≤ time
  layout : ∀ other, SameRows view other → other.iterBooks (some tokens) = view.iterBooks (some tokens) ∧
    ∀ token ∈ tokens, ∀ time, view.startUs ≤ time → time ≤ view.endUs → other.bookAt token time none = view.bookAt token time none

/-- No token with books in the window is asked for twice, and books of one token and one time are the same. -/
structure Untied (view : View) (tokens : List String) : Prop where
  apart : ∀ token ∈ tokens, view.snapshotsOf token ≠ [] → tokens.count token = 1
  single : ∀ token ∈ tokens, Set.InjOn BookSnapshot.observedAt {snapshot | snapshot ∈ view.snapshotsOf token}

section Tokens

variable {view : View} {tokens : List String}

theorem SameRows.snapshots {other : View} (same : SameRows view other) (token : String) :
    (view.snapshotsOf token).Perm (other.snapshotsOf token) := by
  unfold View.snapshotsOf
  rw [← same.startUs, ← same.endUs]
  exact ((same.rows token).filterMap _).map _

theorem length_filter_flatMap (view : View) (tokens : List String) (token : String) :
    ((tokens.flatMap view.snapshotsOf).filter fun snapshot => snapshot.tokenId = token).length =
      tokens.count token * (view.snapshotsOf token).length := by
  induction tokens with
  | nil => simp
  | cons first rest ih =>
    rw [List.flatMap_cons, List.filter_append, List.length_append, ih, List.count_cons]
    by_cases same : first = token
    · have all : (view.snapshotsOf first).filter (fun snapshot => snapshot.tokenId = token) = view.snapshotsOf token := by
        rw [same]
        exact List.filter_eq_self.2 fun snapshot member => decide_eq_true (view.tokenId_of_mem member).1
      rw [all, if_pos (by simpa using same)]
      ring
    · have none : (view.snapshotsOf first).filter (fun snapshot => snapshot.tokenId = token) = [] := by
        refine List.filter_eq_nil_iff.2 fun snapshot member held => ?_
        exact same ((view.tokenId_of_mem member).1.symm.trans (of_decide_eq_true held))
      rw [none, if_neg (by simpa using same), List.length_nil, Nat.zero_add, Nat.add_zero]

theorem filter_flatMap (view : View) {tokens : List String} (distinct : tokens.Nodup) (member : token ∈ tokens) :
    (tokens.flatMap view.snapshotsOf).filter (fun snapshot => snapshot.tokenId = token) = view.snapshotsOf token := by
  induction tokens with
  | nil => cases member
  | cons first rest ih =>
    have ⟨outside, apart⟩ := List.nodup_cons.1 distinct
    rw [List.flatMap_cons, List.filter_append]
    by_cases same : first = token
    · have all : (view.snapshotsOf first).filter (fun snapshot => snapshot.tokenId = token) = view.snapshotsOf token := by
        rw [same]
        exact List.filter_eq_self.2 fun snapshot held => decide_eq_true (view.tokenId_of_mem held).1
      have none : (rest.flatMap view.snapshotsOf).filter (fun snapshot => snapshot.tokenId = token) = [] := by
        have count := length_filter_flatMap view rest token
        rw [List.count_eq_zero_of_not_mem (same ▸ outside), Nat.zero_mul] at count
        exact List.length_eq_zero_iff.1 count
      rw [all, none, List.append_nil]
    · have none : (view.snapshotsOf first).filter (fun snapshot => snapshot.tokenId = token) = [] := by
        refine List.filter_eq_nil_iff.2 fun snapshot held known => ?_
        exact same ((view.tokenId_of_mem held).1.symm.trans (of_decide_eq_true known))
      rw [none, List.nil_append, ih apart ((List.mem_cons.1 member).resolve_left (Ne.symm same))]

theorem flatMap_dedup (apart : ∀ token ∈ tokens, view.snapshotsOf token ≠ [] → tokens.count token = 1) :
    tokens.flatMap view.snapshotsOf = tokens.dedup.flatMap view.snapshotsOf := by
  induction tokens with
  | nil => rfl
  | cons first rest ih =>
    have later := ih fun token member nonempty => by
      have once := apart token (List.mem_cons_of_mem _ member) nonempty
      have held := List.count_pos_iff.2 member
      rw [List.count_cons] at once
      omega
    by_cases again : first ∈ rest
    · have none : view.snapshotsOf first = [] := by
        by_contra nonempty
        have once := apart first List.mem_cons_self nonempty
        have held := List.count_pos_iff.2 again
        rw [List.count_cons_self] at once
        omega
      rw [List.dedup_cons_of_mem again, List.flatMap_cons, none, List.nil_append, later]
    · rw [List.dedup_cons_of_notMem again, List.flatMap_cons, List.flatMap_cons, later]

end Tokens

namespace InMemoryBookReplay

variable (memory : InMemoryBookReplay)

theorem byToken_perm (token : String) :
    (memory.byToken token).Perm (memory.snapshots.filter fun snapshot => snapshot.tokenId = token) :=
  (List.perm_insertionSort _ _).filter _

theorem byToken_sorted (token : String) : (memory.byToken token).Pairwise fun one other => one.observedAt ≤ other.observedAt := by
  have total : Std.Total fun first second => replayKey first ≤ replayKey second := ⟨fun _ _ => le_total _ _⟩
  have transitive : IsTrans BookSnapshot fun first second => replayKey first ≤ replayKey second := ⟨fun _ _ _ below above => below.trans above⟩
  have sorted : memory.iterSnapshots.Pairwise fun one other => replayKey one ≤ replayKey other := List.pairwise_insertionSort _ _
  refine (sorted.filter _).imp fun {one other} below => ?_
  cases Prod.Lex.toLex_le_toLex.1 below with
  | inl less => exact less.le
  | inr equal => exact equal.1.le

theorem snapshotAt_eq (token : String) (time : ℤ) :
    memory.snapshotAt token time = ((memory.byToken token).filter fun snapshot => snapshot.observedAt ≤ time).getLast? := by
  have sorted := memory.byToken_sorted token
  unfold snapshotAt
  generalize memory.byToken token = bucket at sorted
  have paired : (bucket.map fun snapshot => (snapshot.observedAt, snapshot)).Pairwise fun one other => one.1 ≤ other.1 := by
    rw [List.pairwise_map]
    exact sorted
  have found := asOf_eq paired time
  rw [List.filter_map, List.getLast?_map, Option.map_map] at found
  have last : asOf (bucket.map fun snapshot => (snapshot.observedAt, snapshot)) time none =
      (bucket.filter fun snapshot => snapshot.observedAt ≤ time).getLast? := found.trans (congrFun Option.map_id _)
  rw [← last]
  unfold asOf
  have times : (bucket.map fun snapshot => (snapshot.observedAt, snapshot)).map Prod.fst = bucket.map BookSnapshot.observedAt := List.map_map
  rw [times]
  cases bisectRight (bucket.map BookSnapshot.observedAt) time with
  | zero => rfl
  | succ index =>
    simp only [List.getElem?_map]
    cases bucket[index]? <;> rfl

end InMemoryBookReplay

section Contract

variable {view : View} {tokens : List String}

theorem Untied.unique (untied : Untied view tokens) (member : token ∈ tokens) {first second : List BookSnapshot}
    (one : first.Perm (view.snapshotsOf token)) (two : second.Perm (view.snapshotsOf token))
    (ordered : first.Pairwise fun one other => one.observedAt ≤ other.observedAt)
    (other : second.Pairwise fun one other => one.observedAt ≤ other.observedAt) : first = second := by
  refine sorted_unique (one.trans two.symm) (fun here held there known same => ?_) ordered other
  exact untied.single token member (one.mem_iff.1 held) (one.mem_iff.1 known) same

theorem Untied.yielded (untied : Untied view tokens) (member : token ∈ tokens) :
    (view.iterBooks (some tokens)).filter (fun snapshot => snapshot.tokenId = token) = view.booksOf token := by
  have perm := (view.iterBooks_perm tokens).filter fun snapshot => snapshot.tokenId = token
  rw [flatMap_dedup untied.apart, filter_flatMap view tokens.nodup_dedup (List.mem_dedup.2 member)] at perm
  exact untied.unique member perm (view.booksOf_perm token) ((view.iterBooks_sorted tokens).filter _) (view.booksOf_sorted token)

theorem Untied.seriesFor_eq (untied : Untied view tokens) {other : View} (same : SameRows view other) (member : token ∈ tokens) :
    other.seriesFor token = view.seriesFor token := by
  have books := untied.unique member ((other.booksOf_perm token).trans (same.snapshots token).symm) (view.booksOf_perm token)
    (other.booksOf_sorted token) (view.booksOf_sorted token)
  rw [View.seriesFor_eq, View.seriesFor_eq, books]

theorem Untied.matches (untied : Untied view tokens) : MatchesReplay view tokens where
  once := by
    rw [← flatMap_dedup untied.apart]
    exact view.iterBooks_perm tokens
  ordered := view.iterBooks_sorted tokens
  replayed := by
    intro memory same token member
    have perm := (memory.byToken_perm token).trans (same.filter _)
    rw [filter_flatMap view tokens.nodup_dedup (List.mem_dedup.2 member)] at perm
    have books := untied.unique member perm (view.booksOf_perm token) (memory.byToken_sorted token) (view.booksOf_sorted token)
    refine ⟨(untied.yielded member).trans books.symm, fun time _ _ => ?_⟩
    rw [view.bookAt_eq, memory.snapshotAt_eq, books]
  last := by
    intro token member time _ _
    rw [view.bookAt_eq, ← untied.yielded member, List.filter_filter]
    congr 1
    refine List.filter_congr fun snapshot _ => ?_
    rw [Bool.decide_and, Bool.and_comm]
  past := by
    intro token time snapshot found
    rw [view.bookAt_eq] at found
    exact of_decide_eq_true (List.mem_filter.1 (List.mem_of_getLast? found)).2
  layout := by
    intro other same
    have series : ∀ token ∈ tokens, other.seriesFor token = view.seriesFor token := fun token member => untied.seriesFor_eq same member
    refine ⟨?_, fun token member time _ _ => ?_⟩
    · have streams : tokens.map other.seriesFor = tokens.map view.seriesFor := List.map_congr_left series
      simp only [View.iterBooks, Option.getD_some, View.merged_eq, View.streamsOf, streams]
    · unfold View.bookAt
      rw [series token member]

theorem MatchesReplay.apart (replays : MatchesReplay view tokens) (member : token ∈ tokens)
    (nonempty : view.snapshotsOf token ≠ []) : tokens.count token = 1 := by
  have perm := ((view.iterBooks_perm tokens).symm.trans replays.once).filter fun snapshot => snapshot.tokenId = token
  have count := perm.length_eq
  rw [length_filter_flatMap, filter_flatMap view tokens.nodup_dedup (List.mem_dedup.2 member)] at count
  have positive := List.length_pos_iff.2 nonempty
  exact Nat.eq_of_mul_eq_mul_right positive (count.trans (Nat.one_mul _).symm)

def refile (view : View) (token : String) (rows : List BookRow) : View :=
  { view with files := fun other => if other = token then [rows] else view.files other }

theorem refile_same {rows : List BookRow} (same : (rowsOf token (view.files token)).Perm rows) :
    SameRows view (refile view token rows) where
  requested := rfl
  startUs := rfl
  endUs := rfl
  rows := by
    intro other
    by_cases known : other = token
    · have own : rowsOf token [rows] = rows := by
        unfold rowsOf
        rw [List.flatten_singleton]
        exact List.filter_eq_self.2 fun row member => (List.mem_filter.1 (same.mem_iff.2 member)).2
      rw [known]
      simpa only [refile, if_true, own] using same
    · simp only [refile, if_neg known]
      exact List.Perm.refl _

theorem bookAt_refile {rest : List BookRow} {one other : BookRow} {first second : ℤ × BookSnapshot}
    (known : one.tokenId = token ∧ other.tokenId = token) (early : entryOf token view.startUs view.endUs one = some first)
    (late : entryOf token view.startUs view.endUs other = some second) (same : first.1 = second.1) :
    (refile view token (rest ++ [one, other])).bookAt token second.1 none = some second.2 := by
  have rows : rowsOf token [rest ++ [one, other]] = (rest.filter fun row => row.tokenId = token) ++ [one, other] := by
    unfold rowsOf
    rw [List.flatten_singleton, List.filter_append]
    simp [known]
  unfold View.bookAt View.seriesFor loadBookSeries
  simp only [refile, if_true, rows, List.filterMap_append, List.filterMap_cons_some early, List.filterMap_cons_some late,
    List.filterMap_nil]
  exact asOf_latest _ same

theorem MatchesReplay.single (replays : MatchesReplay view tokens) (member : token ∈ tokens) :
    Set.InjOn BookSnapshot.observedAt {snapshot | snapshot ∈ view.snapshotsOf token} := by
  intro one here other there same
  have ⟨first, inside, book⟩ := List.mem_map.1 here
  have ⟨second, outside, page⟩ := List.mem_map.1 there
  have ⟨row, held, found⟩ := List.mem_filterMap.1 inside
  have ⟨line, kept, taken⟩ := List.mem_filterMap.1 outside
  have named : row.tokenId = token ∧ line.tokenId = token :=
    ⟨of_decide_eq_true (List.mem_filter.1 held).2, of_decide_eq_true (List.mem_filter.1 kept).2⟩
  have times : first.1 = second.1 := by
    rw [(View.entryOf_some found).1, (View.entryOf_some taken).1]
    exact book ▸ page ▸ same
  by_cases equal : row = line
  · rw [equal, taken] at found
    cases found
    exact book.symm.trans page
  · have later : line ∈ (rowsOf token (view.files token)).erase row := (List.mem_erase_of_ne (Ne.symm equal)).2 kept
    have split := (List.perm_cons_erase held).trans ((List.perm_cons_erase later).cons row)
    generalize ((rowsOf token (view.files token)).erase row).erase line = rest at split
    have one : (rowsOf token (view.files token)).Perm (rest ++ [row, line]) :=
      split.trans (List.perm_append_comm : ([row, line] ++ rest).Perm _)
    have two : (rowsOf token (view.files token)).Perm (rest ++ [line, row]) :=
      (split.trans (List.Perm.swap line row rest)).trans (List.perm_append_comm : ([line, row] ++ rest).Perm _)
    have forward := replays.layout _ (refile_same one)
    have backward := replays.layout _ (refile_same two)
    have ⟨_, _, lower, upper⟩ := View.entryOf_some taken
    have agreed := (forward.2 token member second.1 lower upper).trans (backward.2 token member second.1 lower upper).symm
    rw [bookAt_refile named found taken times, ← times, bookAt_refile named.symm taken found times.symm, Option.some_inj] at agreed
    exact book.symm.trans (agreed.symm.trans page)

end Contract

/-- The view replays the recorded books exactly if no token with books is asked for twice, and no two books of a token tie. -/
theorem matchesReplay_iff (view : View) (tokens : List String) : MatchesReplay view tokens ↔ Untied view tokens :=
  ⟨fun replays => ⟨fun _ member nonempty => replays.apart member nonempty, fun _ member => replays.single member⟩, Untied.matches⟩

def tiedView : View where
  requested := ["t"]
  files := fun _ => [[{ tokenId := "t", observedAtUs := some 5, sequence := some 2 }, { tokenId := "t", observedAtUs := some 5, sequence := some 1 }]]
  startUs := 0
  endUs := 10

/-- The book that is looked up is not the last in the replay from memory, and each book of a repeated token is yielded twice. -/
theorem tiedView_diverges : ¬ MatchesReplay tiedView ["t"] ∧ ¬ MatchesReplay tiedView ["t", "t"] := by
  constructor
  · intro replays
    have agrees := (replays.replayed ⟨["t"].dedup.flatMap tiedView.snapshotsOf⟩ (List.Perm.refl _) "t" (by decide)).2 5 (by decide) (by decide)
    revert agrees
    decide +kernel
  · intro replays
    have once := replays.once.length_eq
    revert once
    decide +kernel

end Callisto.MarketData
