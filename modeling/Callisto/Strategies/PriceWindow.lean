import Mathlib.Algebra.Order.Ring.Rat
import Mathlib.Data.Rat.Floor
import Callisto.Library.SlidingWindow

/-! The rolling price window of a strategy, beside the same observations without eviction. -/

namespace Callisto.Strategies

open Callisto.Library.SlidingWindow

structure Observation where
  tsMs : ℤ
  price : ℚ
  deriving DecidableEq

structure PriceWindow where
  windowSeconds : ℚ := 300
  samples : List Observation := []

/-- `int(seconds * 1000)` -/
def millis (seconds : ℚ) : ℤ := if 0 ≤ seconds then ⌊seconds * 1000⌋ else ⌈seconds * 1000⌉

namespace PriceWindow

/-- `_evict` -/
def evict (window : PriceWindow) (nowMs : ℤ) : PriceWindow :=
  { window with samples := evictBefore Observation.tsMs (nowMs - millis window.windowSeconds) window.samples }

def record (window : PriceWindow) (price : ℚ) (tsMs : ℤ) : PriceWindow :=
  evict { window with samples := window.samples ++ [⟨tsMs, price⟩] } tsMs

variable (window : PriceWindow)

def latest : Option Observation := window.samples.getLast?

def atOrBefore (tsMs : ℤ) : Option Observation := lastAt Observation.tsMs tsMs window.samples

def logReturn (log : ℚ → ℚ) (secondsAgo : ℚ) : Option ℚ :=
  match window.latest with
  | none => none
  | some latest =>
    if secondsAgo ≤ 0 then none
    else
      match window.atOrBefore (latest.tsMs - millis secondsAgo) with
      | none => none
      | some prior => if prior.price ≤ 0 ∨ latest.price ≤ 0 then none else some (log (latest.price / prior.price))

def hasData : Bool := 2 ≤ window.samples.length

end PriceWindow

structure History where
  observations : List Observation
  ordered : observations.Pairwise fun first second => first.tsMs ≤ second.tsMs
  positive : ∀ observation ∈ observations, 0 < observation.price

structure Lookback where
  seconds : ℚ
  positive : 0 < seconds

namespace History

variable (history : History) (lookback : Lookback)

def window : PriceWindow :=
  history.observations.foldl (fun window observation => window.record observation.price observation.tsMs) ⟨lookback.seconds, []⟩

def full : PriceWindow := ⟨lookback.seconds, history.observations⟩

end History

/-- The time before which a window has evicted everything, once an observation has been recorded. -/
def Lookback.cutoff (lookback : Lookback) (latest : Observation) : ℤ := latest.tsMs - millis lookback.seconds

variable {history : History} {lookback : Lookback}

theorem millis_positive (lookback : Lookback) : millis lookback.seconds = ⌊lookback.seconds * 1000⌋ := if_pos lookback.positive.le

theorem millis_nonneg (lookback : Lookback) : 0 ≤ millis lookback.seconds := by
  rw [millis_positive]
  exact Int.floor_nonneg.2 (mul_nonneg lookback.positive.le (by norm_num))

theorem window_samples (history : History) (lookback : Lookback) : history.window lookback = ⟨lookback.seconds,
    history.observations.getLast?.elim [] fun latest => evictBefore Observation.tsMs (lookback.cutoff latest) history.observations⟩ := by
  have pushed : ∀ (items : List Observation) (samples : List Observation),
      items.foldl (fun window observation => window.record observation.price observation.tsMs) ⟨lookback.seconds, samples⟩ =
        (⟨lookback.seconds, items.foldl (push Observation.tsMs fun latest => latest.tsMs - millis lookback.seconds) samples⟩ : PriceWindow) := by
    intro items
    induction items with
    | nil => exact fun _ => rfl
    | cons item rest ih => exact fun samples => ih _
  unfold History.window
  rw [pushed, foldl_push (fun first second below => sub_le_sub_right below _) history.ordered]
  cases history.observations.getLast? with
  | none => rfl
  | some latest =>
    rw [Option.elim_some, Option.elim_some, evictBefore_eq_filter history.ordered]
    rfl

/-- A time is within the window's length of the latest observation exactly where it is not before the cut-off. -/
theorem within_iff (latest : Observation) (tsMs : ℤ) : (latest.tsMs : ℚ) - lookback.seconds * 1000 ≤ tsMs ↔ lookback.cutoff latest ≤ tsMs := by
  have floor : latest.tsMs - tsMs ≤ millis lookback.seconds ↔ ((latest.tsMs - tsMs : ℤ) : ℚ) ≤ lookback.seconds * 1000 := by
    rw [millis_positive]
    exact Int.le_floor
  unfold Lookback.cutoff
  rw [sub_le_comm, ← Int.cast_sub, ← floor]
  exact sub_le_comm

section Latest

variable {latest : Observation} (newest : history.observations.getLast? = some latest)
include newest

theorem samples_eq : (history.window lookback).samples = evictBefore Observation.tsMs (lookback.cutoff latest) history.observations := by
  rw [window_samples, newest]
  rfl

theorem latest_kept : (history.window lookback).latest = some latest := by
  have parts := List.takeWhile_append_dropWhile (p := fun observation : Observation => decide (observation.tsMs < lookback.cutoff latest))
    (l := history.observations)
  have kept : (history.window lookback).samples ≠ [] := by
    rw [samples_eq newest]
    intro none
    have old := List.dropWhile_eq_nil_iff.1 none latest (List.mem_of_getLast? newest)
    have nonneg := millis_nonneg lookback
    have less : latest.tsMs < latest.tsMs - millis lookback.seconds := of_decide_eq_true old
    omega
  rw [samples_eq newest] at kept
  unfold PriceWindow.latest
  rw [samples_eq newest, ← newest]
  conv_rhs => rw [← parts]
  exact (List.getLast?_append_of_ne_nil _ kept).symm

theorem atOrBefore_window (tsMs : ℤ) : (history.window lookback).atOrBefore tsMs =
    lastAt Observation.tsMs tsMs (evictBefore Observation.tsMs (lookback.cutoff latest) history.observations) := by
  unfold PriceWindow.atOrBefore
  rw [samples_eq newest]

end Latest

/-- The window answers as the whole history does, as far back as its length. -/
structure EvictionInvisible (log : ℚ → ℚ) (history : History) (lookback : Lookback) : Prop where
  atOrBefore : ∀ latest ∈ history.observations.getLast?, ∀ tsMs : ℤ, (latest.tsMs : ℚ) - lookback.seconds * 1000 ≤ tsMs →
    (history.window lookback).atOrBefore tsMs = (history.full lookback).atOrBefore tsMs
  logReturn : ∀ seconds, 0 < seconds → seconds ≤ lookback.seconds →
    (history.window lookback).logReturn log seconds = (history.full lookback).logReturn log seconds

def AnchoredAt (history : History) (lookback : Lookback) : Prop :=
  ∀ latest ∈ history.observations.getLast?, Anchored Observation.tsMs (lookback.cutoff latest) history.observations

theorem logReturn_same {window full : PriceWindow} {log : ℚ → ℚ} {seconds : ℚ} (latest : window.latest = full.latest)
    (prior : ∀ newest ∈ full.latest, window.atOrBefore (newest.tsMs - millis seconds) = full.atOrBefore (newest.tsMs - millis seconds)) :
    window.logReturn log seconds = full.logReturn log seconds := by
  unfold PriceWindow.logReturn
  rw [latest]
  cases known : full.latest with
  | none => rfl
  | some newest => simp only [prior newest known]

theorem evictionInvisible_iff (log : ℚ → ℚ) (history : History) (lookback : Lookback) :
    EvictionInvisible log history lookback ↔ AnchoredAt history lookback := by
  constructor
  · intro invisible latest newest
    have same := invisible.atOrBefore latest newest (lookback.cutoff latest) ((within_iff latest _).2 le_rfl)
    rw [atOrBefore_window newest] at same
    exact (lastAt_cutoff_iff history.ordered).1 same
  · intro anchored
    have found : ∀ latest ∈ history.observations.getLast?, ∀ tsMs, lookback.cutoff latest ≤ tsMs →
        (history.window lookback).atOrBefore tsMs = (history.full lookback).atOrBefore tsMs := by
      intro latest newest tsMs behind
      rw [atOrBefore_window newest]
      exact lastAt_anchored history.ordered (anchored latest newest) behind
    constructor
    case atOrBefore => exact fun latest newest tsMs within => found latest newest tsMs ((within_iff latest tsMs).1 within)
    case logReturn =>
      intro seconds positive short
      refine logReturn_same ?_ fun newest known => found newest known _ (sub_le_sub_left ?_ _)
      · cases known : history.observations.getLast? with
        | none =>
          rw [window_samples, known]
          exact known.symm
        | some latest => rw [latest_kept known]; exact known.symm
      · rw [millis_positive, millis_positive ⟨seconds, positive⟩]
        exact Int.floor_le_floor (mul_le_mul_of_nonneg_right short (by norm_num))

end Callisto.Strategies
