import Callisto.Library.Traversals
import Callisto.Strategies.PriceWindow
import Callisto.Ws.Payload

/-! One price stream in several rolling windows, and whether their returns agree on a direction. -/

namespace Callisto.Strategies

open Callisto.Library Callisto.Library.SlidingWindow

inductive WindowError where
  | noLookback
  | notPositive (label : String) (seconds : ℚ)
  | unknownDirection (direction : String)
  deriving DecidableEq

structure MultiWindow where
  windows : List (String × PriceWindow)

/-- `_direction_sign` -/
def directionSign (direction : String) : Except WindowError ℤ :=
  let norm := (Ws.strip direction).toList.map Char.toLower
  if norm ∈ ["up", "long", "buy", "yes", "+", "1"].map String.toList then .ok 1
  else if norm ∈ ["down", "short", "sell", "no", "-", "-1"].map String.toList then .ok (-1)
  else .error (.unknownDirection direction)

def aligns (sign : ℤ) (threshold ret : ℚ) : Bool :=
  if 0 < sign ∧ threshold ≤ ret then true else sign < 0 ∧ ret ≤ -threshold

namespace MultiWindow

def newWindow (label : String) (seconds : ℚ) : Except WindowError (String × PriceWindow) :=
  if seconds ≤ 0 then .error (.notPositive label seconds) else .ok (label, ⟨seconds, []⟩)

/-- `__init__` -/
def init (lookbacks : Dict String ℚ) : Except WindowError MultiWindow :=
  if lookbacks.entries = [] then .error .noLookback
  else (lookbacks.entries.mapM fun entry => newWindow entry.1 entry.2).map MultiWindow.mk

def record (multi : MultiWindow) (price : ℚ) (tsMs : ℤ) : MultiWindow :=
  ⟨multi.windows.map fun entry => (entry.1, entry.2.record price tsMs)⟩

variable (multi : MultiWindow)

def hasData : Bool := multi.windows.all fun entry => entry.2.hasData

def logReturns (log : ℚ → ℚ) : List (String × Option ℚ) :=
  multi.windows.map fun entry => (entry.1, entry.2.logReturn log entry.2.windowSeconds)

def alignedCount (log : ℚ → ℚ) (direction : String) (minReturn : ℚ) : Except WindowError ℕ := do
  let sign ← directionSign direction
  .ok ((multi.logReturns log).countP fun entry => entry.2.any (aligns sign |minReturn|))

def allAgree (log : ℚ → ℚ) (direction : String) (minReturn : ℚ) : Except WindowError Bool :=
  if multi.hasData then (multi.alignedCount log direction minReturn).map fun count => count = multi.windows.length else .ok false

end MultiWindow

/-- The lookbacks that the constructor accepts, by their labels. -/
structure Lookbacks where
  windows : List (String × Lookback)
  nonempty : windows ≠ []
  distinct : (windows.map Prod.fst).Nodup

namespace Lookbacks

variable (lookbacks : Lookbacks)

def seconds : Dict String ℚ := ⟨lookbacks.windows.map fun entry => (entry.1, entry.2.seconds), by
  rw [List.map_map]
  exact lookbacks.distinct⟩

def start : MultiWindow := ⟨lookbacks.windows.map fun entry => (entry.1, ⟨entry.2.seconds, []⟩)⟩

end Lookbacks

theorem newWindow_ok {label : String} {seconds : ℚ} {entry : String × PriceWindow} :
    MultiWindow.newWindow label seconds = .ok entry ↔ 0 < seconds ∧ entry = (label, ⟨seconds, []⟩) := by
  unfold MultiWindow.newWindow
  by_cases short : seconds ≤ 0
  · rw [if_pos short]
    exact ⟨nofun, fun valid => absurd valid.1 (not_lt.2 short)⟩
  · rw [if_neg short]
    exact ⟨fun made => ⟨not_le.1 short, (Except.ok.inj made).symm⟩, fun valid => by rw [valid.2]⟩

theorem init_ok_iff {dict : Dict String ℚ} {multi : MultiWindow} :
    MultiWindow.init dict = .ok multi ↔ ∃ lookbacks : Lookbacks, lookbacks.seconds = dict ∧ lookbacks.start = multi := by
  have made : ∀ (entries : List (String × ℚ)) (windows : List (String × PriceWindow)),
      entries.mapM (fun entry => MultiWindow.newWindow entry.1 entry.2) = .ok windows ↔ ∃ lookbacks : List (String × Lookback),
        lookbacks.map (fun entry => (entry.1, entry.2.seconds)) = entries ∧
          lookbacks.map (fun entry => (entry.1, (⟨entry.2.seconds, []⟩ : PriceWindow))) = windows := by
    intro entries
    induction entries with
    | nil =>
      intro windows
      constructor
      · intro done
        cases done
        exact ⟨[], rfl, rfl⟩
      · intro found
        obtain ⟨lookbacks, none, rfl⟩ := found
        rw [List.map_eq_nil_iff.1 none]
        rfl
    | cons entry rest ih =>
      intro windows
      rw [mapM_cons_ok]
      constructor
      · intro found
        obtain ⟨first, others, here, later, rfl⟩ := found
        obtain ⟨positive, rfl⟩ := newWindow_ok.1 here
        obtain ⟨lookbacks, rfl, rfl⟩ := (ih others).1 later
        exact ⟨(entry.1, ⟨entry.2, positive⟩) :: lookbacks, rfl, rfl⟩
      · intro found
        obtain ⟨lookbacks, same, rfl⟩ := found
        cases lookbacks with
        | nil => cases same
        | cons first others =>
          obtain ⟨head, tail⟩ := List.cons.inj same
          subst head
          exact ⟨_, _, newWindow_ok.2 ⟨first.2.positive, rfl⟩, (ih _).2 ⟨others, tail, rfl⟩, rfl⟩
  unfold MultiWindow.init
  constructor
  · intro done
    split_ifs at done with empty
    obtain ⟨windows, same, rfl⟩ := map_ok done
    obtain ⟨lookbacks, entries, rfl⟩ := (made dict.entries windows).1 same
    refine ⟨⟨lookbacks, ?_, ?_⟩, ?_, rfl⟩
    · intro none
      rw [none] at entries
      exact empty entries.symm
    · have distinct := dict.nodup
      rw [← entries, List.map_map] at distinct
      exact distinct
    · cases dict
      cases entries
      rfl
  · intro found
    obtain ⟨lookbacks, rfl, rfl⟩ := found
    have some_ : lookbacks.seconds.entries ≠ [] := fun empty => lookbacks.nonempty (List.map_eq_nil_iff.1 empty)
    have windows := (made lookbacks.seconds.entries lookbacks.start.windows).2 ⟨lookbacks.windows, rfl, rfl⟩
    rw [if_neg some_, windows]
    rfl

namespace History

variable (history : History)

def multi (lookbacks : Lookbacks) : MultiWindow :=
  history.observations.foldl (fun multi observation => multi.record observation.price observation.tsMs) lookbacks.start

def fullReturn (log : ℚ → ℚ) (lookback : Lookback) : Option ℚ := (history.full lookback).logReturn log lookback.seconds

/-- The returns over all lookbacks exist, and have one direction and at least a size. -/
def aligned (log : ℚ → ℚ) (lookbacks : Lookbacks) (sign : ℤ) (threshold : ℚ) : Bool :=
  lookbacks.windows.all fun entry => (history.fullReturn log entry.2).any (aligns sign threshold)

/-- The observations that are not older than the cut-off of a lookback. -/
def recent (lookback : Lookback) : List Observation :=
  history.observations.filter fun observation => history.observations.getLast?.all fun latest => lookback.cutoff latest ≤ observation.tsMs

end History

variable {history : History} {lookbacks : Lookbacks}

theorem multi_windows (history : History) (lookbacks : Lookbacks) :
    (history.multi lookbacks).windows = lookbacks.windows.map fun entry => (entry.1, history.window entry.2) := by
  have fanned : ∀ (items : List Observation) (windows : List (String × PriceWindow)),
      (items.foldl (fun multi observation => multi.record observation.price observation.tsMs) (⟨windows⟩ : MultiWindow)).windows =
        windows.map fun entry => (entry.1, items.foldl (fun window observation => window.record observation.price observation.tsMs) entry.2) := by
    intro items
    induction items with
    | nil => exact fun windows => (List.map_id windows).symm
    | cons item rest ih =>
      intro windows
      rw [List.foldl_cons, MultiWindow.record, ih, List.map_map]
      rfl
  unfold History.multi Lookbacks.start
  rw [fanned, List.map_map]
  rfl

theorem window_recent (history : History) (lookback : Lookback) : (history.window lookback).samples = history.recent lookback := by
  unfold History.recent
  cases newest : history.observations.getLast? with
  | none =>
    rw [window_samples, newest, List.getLast?_eq_none_iff.1 newest]
    rfl
  | some latest =>
    rw [samples_eq newest, evictBefore_eq_filter history.ordered]
    rfl

theorem multi_returns (log : ℚ → ℚ) (history : History) (lookbacks : Lookbacks) : (history.multi lookbacks).logReturns log =
    lookbacks.windows.map fun entry => (entry.1, (history.window entry.2).logReturn log entry.2.seconds) := by
  unfold MultiWindow.logReturns
  rw [multi_windows, List.map_map]
  refine List.map_congr_left fun entry _ => ?_
  have length : (history.window entry.2).windowSeconds = entry.2.seconds := by rw [window_samples]
  exact congrArg (fun seconds => (entry.1, (history.window entry.2).logReturn log seconds)) length

theorem multi_hasData (history : History) (lookbacks : Lookbacks) :
    (history.multi lookbacks).hasData = true ↔ ∀ entry ∈ lookbacks.windows, 2 ≤ (history.recent entry.2).length := by
  unfold MultiWindow.hasData
  rw [multi_windows, List.all_map, List.all_eq_true]
  refine forall₂_congr fun entry _ => ?_
  rw [← window_recent]
  exact decide_eq_true_iff

theorem aligns_weaken {sign : ℤ} {threshold ret : ℚ} (nonneg : 0 ≤ threshold) (aligned : aligns sign threshold ret = true) :
    aligns sign 0 ret = true := by
  unfold aligns at aligned ⊢
  split_ifs at aligned with up
  · rw [if_pos ⟨up.1, nonneg.trans up.2⟩]
  · obtain ⟨down, below⟩ := of_decide_eq_true aligned
    have under : ret ≤ -0 := below.trans (neg_le_neg nonneg)
    rw [if_neg (fun other => absurd down (not_lt.2 other.1.le))]
    exact decide_eq_true ⟨down, under⟩

theorem fullReturn_some (log : ℚ → ℚ) {latest : Observation} (newest : history.observations.getLast? = some latest) {lookback : Lookback}
    {observation : Observation} (member : observation ∈ history.observations) (old : observation.tsMs ≤ lookback.cutoff latest) :
    ∃ ret, history.fullReturn log lookback = some ret := by
  have found : lastAt Observation.tsMs (lookback.cutoff latest) history.observations ≠ none := fun none =>
    absurd (lastAt_eq_none.1 none observation member) (not_lt.2 old)
  obtain ⟨prior, found⟩ := Option.ne_none_iff_exists'.1 found
  have held : prior ∈ history.observations := by
    rw [lastAt_eq] at found
    exact (List.mem_filter.1 (List.mem_of_getLast? found)).1
  have positive : ¬(prior.price ≤ 0 ∨ latest.price ≤ 0) := by
    rw [not_or, not_le, not_le]
    exact ⟨history.positive prior held, history.positive latest (List.mem_of_getLast? newest)⟩
  refine ⟨log (latest.price / prior.price), ?_⟩
  unfold History.fullReturn PriceWindow.logReturn
  have last : (history.full lookback).latest = some latest := newest
  have before : (history.full lookback).atOrBefore (latest.tsMs - millis lookback.seconds) = some prior := found
  rw [last]
  simp only [before, if_neg positive, if_neg (not_le.2 lookback.positive)]

/-- The tracker answers as the whole history does: over each lookback there is a return once an observation is old enough, and the
lookbacks agree on a direction exactly where the returns of the whole history do. -/
structure ConfirmsMoves (log : ℚ → ℚ) (history : History) (lookbacks : Lookbacks) : Prop where
  invisible : ∀ entry ∈ lookbacks.windows, EvictionInvisible log history entry.2
  returns : ∀ entry ∈ lookbacks.windows, ∀ latest ∈ history.observations.getLast?,
    (∃ observation ∈ history.observations, (observation.tsMs : ℚ) + entry.2.seconds * 1000 ≤ latest.tsMs) →
      ∃ ret, (entry.1, some ret) ∈ (history.multi lookbacks).logReturns log
  agrees : ∀ direction minReturn sign, directionSign direction = .ok sign →
    (history.multi lookbacks).allAgree log direction minReturn = .ok (history.aligned log lookbacks sign |minReturn|)

/-- Each lookback is anchored, and none that the history aligns has fewer than two recent observations. -/
structure Confirmable (log : ℚ → ℚ) (history : History) (lookbacks : Lookbacks) : Prop where
  anchored : ∀ entry ∈ lookbacks.windows, AnchoredAt history entry.2
  populated : ∀ sign ∈ ([1, -1] : List ℤ), history.aligned log lookbacks sign 0 = true →
    ∀ entry ∈ lookbacks.windows, 2 ≤ (history.recent entry.2).length

theorem directionSign_pair {direction : String} {sign : ℤ} (known : directionSign direction = .ok sign) : sign ∈ ([1, -1] : List ℤ) := by
  unfold directionSign at known
  dsimp only at known
  split_ifs at known
  · cases known
    decide
  · cases known
    decide

theorem direction_of_sign {sign : ℤ} (pair : sign ∈ ([1, -1] : List ℤ)) : ∃ direction, directionSign direction = .ok sign := by
  cases List.mem_cons.1 pair with
  | inl up => exact ⟨"up", by rw [up]; decide⟩
  | inr down => exact ⟨"down", by rw [List.mem_singleton.1 down]; decide⟩

theorem allAgree_anchored (log : ℚ → ℚ) (anchored : ∀ entry ∈ lookbacks.windows, AnchoredAt history entry.2) {direction : String} {sign : ℤ}
    (known : directionSign direction = .ok sign) (minReturn : ℚ) : (history.multi lookbacks).allAgree log direction minReturn =
      .ok ((history.multi lookbacks).hasData && history.aligned log lookbacks sign |minReturn|) := by
  have same : (history.multi lookbacks).logReturns log = lookbacks.windows.map fun entry => (entry.1, history.fullReturn log entry.2) := by
    rw [multi_returns]
    refine List.map_congr_left fun entry member => ?_
    have invisible := (evictionInvisible_iff log history entry.2).2 (anchored entry member)
    exact congrArg (Prod.mk entry.1) (invisible.logReturn entry.2.seconds entry.2.positive le_rfl)
  unfold MultiWindow.allAgree MultiWindow.alignedCount
  by_cases enough : (history.multi lookbacks).hasData = true
  · have length : (history.multi lookbacks).windows.length = lookbacks.windows.length := by rw [multi_windows, List.length_map]
    rw [if_pos enough, known, same, length, enough, Bool.true_and]
    change Except.ok (decide (List.countP _ _ = lookbacks.windows.length)) = _
    refine congrArg Except.ok (Bool.eq_iff_iff.2 ?_)
    rw [List.countP_map, decide_eq_true_iff, List.countP_eq_length, History.aligned, List.all_eq_true]
    rfl
  · rw [if_neg enough, Bool.eq_false_iff.2 enough, Bool.false_and]

theorem confirmsMoves_iff (log : ℚ → ℚ) (history : History) (lookbacks : Lookbacks) :
    ConfirmsMoves log history lookbacks ↔ Confirmable log history lookbacks := by
  constructor
  · intro confirms
    have anchored : ∀ entry ∈ lookbacks.windows, AnchoredAt history entry.2 := fun entry member =>
      (evictionInvisible_iff log history entry.2).1 (confirms.invisible entry member)
    constructor
    case anchored => exact anchored
    case populated =>
      intro sign pair aligned
      obtain ⟨direction, known⟩ := direction_of_sign pair
      have agrees := confirms.agrees direction 0 sign known
      rw [allAgree_anchored log anchored known, abs_zero, aligned, Bool.and_true] at agrees
      exact (multi_hasData history lookbacks).1 (Except.ok.inj agrees)
  · intro confirmable
    constructor
    case invisible => exact fun entry member => (evictionInvisible_iff log history entry.2).2 (confirmable.anchored entry member)
    case returns =>
      intro entry member latest newest older
      obtain ⟨observation, held, old⟩ := older
      have before : observation.tsMs ≤ entry.2.cutoff latest := by
        have span : millis entry.2.seconds ≤ latest.tsMs - observation.tsMs := by
          rw [millis_positive]
          have under : entry.2.seconds * 1000 ≤ ((latest.tsMs - observation.tsMs : ℤ) : ℚ) := by
            rw [Int.cast_sub]
            exact le_sub_iff_add_le'.2 old
          exact_mod_cast (Int.floor_le _).trans under
        exact le_sub_comm.1 span
      obtain ⟨ret, found⟩ := fullReturn_some log newest held before
      have invisible := (evictionInvisible_iff log history entry.2).2 (confirmable.anchored entry member)
      refine ⟨ret, ?_⟩
      rw [multi_returns]
      refine List.mem_map.2 ⟨entry, member, ?_⟩
      rw [invisible.logReturn entry.2.seconds entry.2.positive le_rfl]
      exact congrArg (Prod.mk entry.1) found
    case agrees =>
      intro direction minReturn sign known
      rw [allAgree_anchored log confirmable.anchored known]
      refine congrArg Except.ok ?_
      rw [Bool.and_eq_right_iff_imp]
      intro aligned
      refine (multi_hasData history lookbacks).2 (confirmable.populated sign (directionSign_pair known) ?_)
      refine List.all_eq_true.2 fun entry member => ?_
      obtain ⟨ret, found, sized⟩ := (Option.any_eq_true _ _).1 (List.all_eq_true.1 aligned entry member)
      exact (Option.any_eq_true _ _).2 ⟨ret, found, aligns_weaken (abs_nonneg _) sized⟩

theorem confirmable_iff (log : ℚ → ℚ) (long : ∀ entry ∈ lookbacks.windows, 0 < millis entry.2.seconds) :
    Confirmable log history lookbacks ↔ ∀ entry ∈ lookbacks.windows, AnchoredAt history entry.2 := by
  refine ⟨fun confirmable => confirmable.anchored, fun anchored => ⟨anchored, fun sign _ aligned entry member => ?_⟩⟩
  obtain ⟨ret, found, -⟩ := (Option.any_eq_true _ _).1 (List.all_eq_true.1 aligned entry member)
  cases newest : history.observations.getLast? with
  | none =>
    have nothing : (history.full entry.2).latest = none := newest
    unfold History.fullReturn PriceWindow.logReturn at found
    rw [nothing] at found
    cases found
  | some latest =>
    have last : (history.full entry.2).latest = some latest := newest
    have behind : entry.2.cutoff latest < latest.tsMs := sub_lt_self _ (long entry member)
    have anchor : ∃ observation ∈ history.observations, observation.tsMs = entry.2.cutoff latest := by
      cases prior : (history.full entry.2).atOrBefore (entry.2.cutoff latest) with
      | none =>
        have missing : (history.full entry.2).atOrBefore (latest.tsMs - millis entry.2.seconds) = none := prior
        unfold History.fullReturn PriceWindow.logReturn at found
        simp only [last, missing, if_neg (not_le.2 entry.2.positive)] at found
        cases found
      | some observation =>
        have early : observation ∈ history.observations.filter fun other => other.tsMs ≤ entry.2.cutoff latest := by
          have looked : lastAt Observation.tsMs (entry.2.cutoff latest) history.observations = some observation := prior
          rw [lastAt_eq] at looked
          exact List.mem_of_getLast? looked
        obtain ⟨held, below⟩ := List.mem_filter.1 early
        cases (of_decide_eq_true below).lt_or_eq with
        | inl older => exact anchored entry member latest newest ⟨observation, held, older⟩
        | inr same => exact ⟨observation, held, same⟩
    obtain ⟨observation, held, same⟩ := anchor
    have kept : ∀ other ∈ history.observations, entry.2.cutoff latest ≤ other.tsMs → other ∈ history.recent entry.2 := by
      intro other there recent
      unfold History.recent
      rw [newest]
      exact List.mem_filter.2 ⟨there, decide_eq_true recent⟩
    have first := kept observation held same.ge
    have second := kept latest (List.mem_of_getLast? newest) behind.le
    have apart : observation ≠ latest := by
      rintro rfl
      exact behind.ne same.symm
    by_contra few
    cases recent : history.recent entry.2 with
    | nil =>
      rw [recent] at first
      cases first
    | cons head rest =>
      have single : rest = [] := by
        rw [recent, List.length_cons] at few
        exact List.length_eq_zero_iff.1 (by omega)
      rw [recent, single] at first second
      exact apart ((List.mem_singleton.1 first).trans (List.mem_singleton.1 second).symm)

/-- Eviction is invisible to a window that is anchored, and to no other; a tracker confirms what the whole history does exactly if its
windows are anchored and populated. -/
theorem eviction_invisible_iff (log : ℚ → ℚ) :
    (∀ history lookback, EvictionInvisible log history lookback ↔ AnchoredAt history lookback) ∧
      ∀ history lookbacks, ConfirmsMoves log history lookbacks ↔ Confirmable log history lookbacks :=
  ⟨evictionInvisible_iff log, confirmsMoves_iff log⟩

/-- Ticks of which one is older than a minute before the last, and none is just a minute older. -/
def unevenTicks : History where
  observations := [⟨0, 1⟩, ⟨30000, 2⟩, ⟨61000, 3⟩]
  ordered := by decide
  positive := by decide +kernel

def minute : Lookback := ⟨60, by decide +kernel⟩

def minuteTracker : Lookbacks := ⟨[("1m", minute)], by decide, by decide⟩

theorem unevenTicks_lose_anchor : ¬EvictionInvisible id unevenTicks minute ∧ ¬ConfirmsMoves id unevenTicks minuteTracker ∧
    (unevenTicks.multi minuteTracker).logReturns id = [("1m", none)] := by
  have evicted : (unevenTicks.window minute).atOrBefore 1000 ≠ (unevenTicks.full minute).atOrBefore 1000 := by decide +kernel
  have visible : ¬EvictionInvisible id unevenTicks minute := fun invisible =>
    evicted (invisible.atOrBefore ⟨61000, 3⟩ rfl 1000 (by decide +kernel))
  exact ⟨visible, fun confirms => visible (confirms.invisible ("1m", minute) List.mem_cons_self), by decide +kernel⟩

end Callisto.Strategies
