import Callisto.Fast.FastSubmit
import Callisto.Library.Runs

/-! The open-order cap and the dedup of the fast path, over the calls and sweeps of one process. -/

namespace Callisto.Fast

open Callisto.Library Runs

/-- The submissions of a trader that are in flight, ambiguous or counted as open by the hot state. -/
def busyCount (state : FastState) (trader : String) : ℕ :=
  state.submissions.countEntries fun key submission => key.1 = trader && submission.stage.busy

/-- Every submission is started once, and a trader whose calls all have one cap stays within it. -/
structure WithinCap (state : FastState) : Prop where
  once : state.started.Nodup
  cap : ∀ (trader : String) (n : ℤ), 0 < n → (∀ call ∈ state.calls, call.1 = trader → call.2 = some n) →
    (busyCount state trader : ℤ) ≤ n

/-- The process does not crash, and a sweep closes an intent only when its call has ended and, for a live one, its row was found. -/
def SettledSweep (state : FastState) : FastEvent → Prop
  | .crash _ _ => False
  | .sweepAct sweep => (state.sweeps.get? sweep).all fun running => running.remaining.head?.all fun entry =>
      ((state.submissions.get? entry.1).all fun submission => !submission.stage.inFlight) &&
        (entry.2 ≠ "live" || running.found ≠ some false)
  | _ => True

instance (state : FastState) : ∀ event, Decidable (SettledSweep state event)
  | .crash _ _ => isFalse id
  | .sweepAct sweep => inferInstanceAs (Decidable ((state.sweeps.get? sweep).all _ = true))
  | .call _ _ _ _ => isTrue trivial
  | .skipped _ => isTrue trivial
  | .answered _ _ => isTrue trivial
  | .ambiguous _ => isTrue trivial
  | .persist _ => isTrue trivial
  | .persistFailed _ => isTrue trivial
  | .finish _ _ => isTrue trivial
  | .sweepStart _ => isTrue trivial
  | .sweepLookup _ => isTrue trivial
  | .sweepCommit _ => isTrue trivial
  | .sweepFail _ => isTrue trivial

/-- Every submission started is in the index, and the intent of a busy one is open. -/
structure Guarded (state : FastState) : Prop where
  known : ∀ key ∈ state.started, (state.intents.get? key).isSome = true
  submitted : ∀ key submission, state.submissions.get? key = some submission → (state.intents.get? key).isSome = true
  busy : ∀ key submission, state.submissions.get? key = some submission → submission.stage.busy = true →
    ∃ intent, state.intents.get? key = some intent ∧ intent.isOpen = true
  uncounted : ∀ key submission, state.submissions.get? key = some submission → submission.stage ≠ .settled true
  within : WithinCap state

theorem noFast_guarded : Guarded noFast := by
  have noSubmission : ∀ (key : Key) (submission : Submission), noFast.submissions.get? key = some submission → False := by
    intro key submission found
    cases found
  constructor
  · exact fun _ member => absurd member List.not_mem_nil
  · exact fun key submission found => (noSubmission key submission found).elim
  · exact fun key submission found => (noSubmission key submission found).elim
  · exact fun key submission found => (noSubmission key submission found).elim
  · constructor
    · exact List.nodup_nil
    · intro trader n positive _
      show ((0 : ℕ) : ℤ) ≤ n
      omega

theorem countsOpen_false (status : OrderStatus) : status.countsOpen = false := by
  cases status <;> decide

theorem closeIntent_isSome (intents : Dict Key Intent) (key other : Key) (held : (intents.get? other).isSome = true) :
    ((closeIntent intents key).get? other).isSome = true := by
  unfold closeIntent
  rw [Dict.get?_set]
  split
  · rfl
  · exact held

theorem closeIntent_other {intents : Dict Key Intent} {key other : Key} (different : key ≠ other) :
    (closeIntent intents key).get? other = intents.get? other := by
  unfold closeIntent
  rw [Dict.get?_set, if_neg different]

/-- A step that starts nothing keeps the guard, when a submission busy after it was busy before and no intent of such a one is closed. -/
theorem Guarded.quiet {state next : FastState} (guarded : Guarded state) (started : next.started = state.started)
    (calls : next.calls = state.calls) (known : ∀ key, (state.intents.get? key).isSome = true → (next.intents.get? key).isSome = true)
    (submitted : ∀ key submission, next.submissions.get? key = some submission → ∃ old, state.submissions.get? key = some old ∧
      (submission.stage.busy = true → old.stage.busy = true ∧ next.intents.get? key = state.intents.get? key) ∧
      (submission.stage = .settled true → old.stage = .settled true)) : Guarded next := by
  constructor
  · intro key member
    rw [started] at member
    exact known key (guarded.known key member)
  · intro key submission found
    obtain ⟨old, before, -⟩ := submitted key submission found
    exact known key (guarded.submitted key old before)
  · intro key submission found busy
    obtain ⟨old, before, kept⟩ := submitted key submission found
    obtain ⟨oldBusy, same⟩ := kept.1 busy
    rw [same]
    exact guarded.busy key old before oldBusy
  · intro key submission found counted
    obtain ⟨old, before, kept⟩ := submitted key submission found
    exact guarded.uncounted key old before (kept.2 counted)
  · constructor
    · rw [started]
      exact guarded.within.once
    · intro trader n positive all
      rw [calls] at all
      have before := guarded.within.cap trader n positive all
      have fewer : busyCount next trader ≤ busyCount state trader := by
        apply Dict.countEntries_le
        intro key submission found own
        rw [Bool.and_eq_true] at own
        obtain ⟨old, here, kept⟩ := submitted key submission found
        exact ⟨old, here, by rw [Bool.and_eq_true]; exact ⟨own.1, (kept.1 own.2).1⟩⟩
      omega

theorem Guarded.move {state next : FastState} (guarded : Guarded state) {key : Key} {submission : Submission}
    (found : state.submissions.get? key = some submission) (stage : Stage)
    (submissions : next.submissions = state.submissions.set key { submission with stage := stage })
    (started : next.started = state.started) (calls : next.calls = state.calls)
    (intents : next.intents = state.intents ∨ next.intents = closeIntent state.intents key ∧ stage.busy = false)
    (busy : stage.busy = true → submission.stage.busy = true) (uncounted : stage ≠ .settled true) : Guarded next := by
  apply guarded.quiet started calls
  · intro other held
    cases intents with
    | inl same =>
      rw [same]
      exact held
    | inr closed =>
      rw [closed.1]
      exact closeIntent_isSome _ _ _ held
  · intro other now here
    rw [submissions, Dict.get?_set] at here
    by_cases own : key = other
    · rw [if_pos own] at here
      subst own
      cases here
      refine ⟨submission, found, fun busyNow => ⟨busy busyNow, ?_⟩, fun counted => absurd counted uncounted⟩
      cases intents with
      | inl same => rw [same]
      | inr closed =>
        rw [closed.2] at busyNow
        cases busyNow
    · rw [if_neg own] at here
      refine ⟨now, here, fun busyNow => ⟨busyNow, ?_⟩, id⟩
      cases intents with
      | inl same => rw [same]
      | inr closed => rw [closed.1, closeIntent_other own]

theorem Guarded.frame {state next : FastState} (guarded : Guarded state) (started : next.started = state.started)
    (calls : next.calls = state.calls) (intents : next.intents = state.intents) (submissions : next.submissions = state.submissions) :
    Guarded next := by
  apply guarded.quiet started calls
  · rw [intents]
    exact fun _ held => held
  · rw [intents, submissions]
    exact fun key submission found => ⟨submission, found, fun busy => ⟨busy, rfl⟩, id⟩

theorem fire_guarded {state : FastState} (guarded : Guarded state) (key : Key) (mode : String) (cap : Option ℤ) (others : ℕ) :
    Guarded (fire state key mode cap others) := by
  have recorded : Guarded { state with calls := state.calls ++ [(key.1, cap)] } := by
    obtain ⟨known, submitted, busy, uncounted, within⟩ := guarded
    refine ⟨known, submitted, busy, uncounted, within.once, fun trader n positive all => ?_⟩
    exact within.cap trader n positive fun call member => all call (List.mem_append_left _ member)
  unfold fire
  simp only
  split
  case isTrue => exact recorded
  case isFalse unknown =>
    split
    case isTrue => exact recorded
    case isFalse below =>
      rw [Bool.not_eq_true, Option.isSome_eq_false_iff, Option.isNone_iff_eq_none] at unknown
      have fresh : key ∉ state.started := by
        intro member
        have held := guarded.known key member
        rw [unknown] at held
        cases held
      have kept : ∀ other, (state.intents.get? other).isSome = true → ((state.intents.set key ⟨mode, true⟩).get? other).isSome = true := by
        intro other held
        rw [Dict.get?_set]
        split
        · rfl
        · exact held
      have busyNow : ∀ other submission, (state.submissions.set key ⟨mode, .onWire⟩).get? other = some submission →
          submission.stage.busy = true → ∃ intent, (state.intents.set key ⟨mode, true⟩).get? other = some intent ∧ intent.isOpen = true := by
        intro other submission found busy
        rw [Dict.get?_set] at found ⊢
        by_cases own : key = other
        · rw [if_pos own]
          exact ⟨_, rfl, rfl⟩
        · rw [if_neg own] at found ⊢
          exact guarded.busy other submission found busy
      constructor
      · intro other member
        cases List.mem_append.1 member with
        | inl before => exact kept other (guarded.known other before)
        | inr new =>
          rw [List.mem_singleton.1 new, Dict.get?_set, if_pos rfl]
          rfl
      · intro other submission found
        show ((state.intents.set key ⟨mode, true⟩).get? other).isSome = true
        have here : (state.submissions.set key ⟨mode, .onWire⟩).get? other = some submission := found
        rw [Dict.get?_set] at here
        by_cases own : key = other
        · rw [Dict.get?_set, if_pos own]
          rfl
        · rw [if_neg own] at here
          exact kept other (guarded.submitted other submission here)
      · exact busyNow
      · intro other submission found
        have here : (state.submissions.set key ⟨mode, .onWire⟩).get? other = some submission := found
        rw [Dict.get?_set] at here
        by_cases own : key = other
        · rw [if_pos own] at here
          cases here
          intro counted
          cases counted
        · rw [if_neg own] at here
          exact guarded.uncounted other submission here
      · constructor
        · exact List.nodup_append.2 ⟨guarded.within.once, List.nodup_singleton key, fun one member other single same => by
            rw [List.mem_singleton.1 single] at same
            exact fresh (same ▸ member)⟩
        · intro trader n positive all
          by_cases own : key.1 = trader
          · -- the busy submissions after the call are open intents, and one more than the check counted
            have mine : cap = some n := all (key.1, cap) (List.mem_append_right _ List.mem_cons_self) own
            have open_ : ((state.submissions.set key ⟨mode, .onWire⟩).countEntries fun key submission =>
                key.1 = trader && submission.stage.busy) ≤
                (state.intents.set key ⟨mode, true⟩).countEntries fun key intent => key.1 = trader && intent.isOpen := by
              apply Dict.countEntries_le
              intro other submission found counted
              rw [Bool.and_eq_true] at counted
              obtain ⟨intent, here, opened⟩ := busyNow other submission found counted.2
              exact ⟨intent, here, by rw [counted.1, opened]; rfl⟩
            have one := Dict.countEntries_set state.intents key ⟨mode, true⟩ fun key intent => key.1 = trader && intent.isOpen
            have room : (openIntentCount state trader : ℤ) < n := by
              rw [mine] at below
              unfold capReached at below
              rw [Option.any_some, Bool.and_eq_true, decide_eq_true_eq, decide_eq_true_eq, own] at below
              by_contra full
              apply below
              refine ⟨positive, ?_⟩
              push_cast
              omega
            show (((state.submissions.set key ⟨mode, .onWire⟩).countEntries fun key submission =>
              key.1 = trader && submission.stage.busy : ℕ) : ℤ) ≤ n
            have counted : openIntentCount state trader =
              state.intents.countEntries fun key intent => key.1 = trader && intent.isOpen := rfl
            omega
          · have before := guarded.within.cap trader n positive fun call member => all call (List.mem_append_left _ member)
            have fewer : ((state.submissions.set key ⟨mode, .onWire⟩).countEntries fun key submission =>
                key.1 = trader && submission.stage.busy) ≤ busyCount state trader := by
              apply Dict.countEntries_le
              intro other submission found counted
              rw [Dict.get?_set] at found
              by_cases same : key = other
              · rw [Bool.and_eq_true, decide_eq_true_eq, ← same] at counted
                exact absurd counted.1 own
              · rw [if_neg same] at found
                exact ⟨submission, found, counted⟩
            show (((state.submissions.set key ⟨mode, .onWire⟩).countEntries fun key submission =>
              key.1 = trader && submission.stage.busy : ℕ) : ℤ) ≤ n
            omega

theorem recover_guarded {state : FastState} (guarded : Guarded state) {key : Key}
    (ended : (state.submissions.get? key).all (fun submission => !submission.stage.inFlight) = true) :
    Guarded (recoverIntent state key true) := by
  unfold recoverIntent
  cases found : state.submissions.get? key with
  | none =>
    refine Guarded.quiet guarded ?_ ?_ ?_ ?_
    iterate 2 rfl
    · exact fun other held => closeIntent_isSome _ _ _ held
    · intro other submission here
      refine ⟨submission, here, fun busy => ⟨busy, closeIntent_other ?_⟩, id⟩
      intro same
      have there : state.submissions.get? other = some submission := here
      rw [← same, found] at there
      cases there
  | some submission =>
    rw [found, Option.all_some] at ended
    simp only [true_and]
    split
    case isTrue =>
      refine guarded.move found (.settled false) ?_ ?_ ?_ (Or.inr ⟨?_, ?_⟩) ?_ ?_
      iterate 5 rfl
      · intro busy
        cases busy
      · intro counted
        cases counted
    case isFalse other =>
      refine Guarded.quiet guarded ?_ ?_ ?_ ?_
      iterate 2 rfl
      · exact fun other held => closeIntent_isSome _ _ _ held
      · intro target now here
        have there : state.submissions.get? target = some now := here
        refine ⟨now, there, fun busy => ⟨busy, closeIntent_other ?_⟩, id⟩
        intro same
        rw [← same, found] at there
        cases there
        have never := guarded.uncounted key submission found
        cases stage : submission.stage with
        | settled countsOpen =>
          rw [stage] at busy never
          exact never (congrArg Stage.settled busy)
        | unresolved => exact other stage
        | onWire =>
          rw [stage] at ended
          cases ended
        | answered status =>
          rw [stage] at ended
          cases ended
        | persisted status =>
          rw [stage] at ended
          cases ended

theorem sweepAct_guarded {state : FastState} (guarded : Guarded state) (id : ℕ) {sweep : Sweep}
    (safe : (sweep.remaining.head?.all fun entry => ((state.submissions.get? entry.1).all fun submission => !submission.stage.inFlight) &&
      (entry.2 ≠ "live" || sweep.found ≠ some false)) = true) : Guarded (sweepAct state id sweep) := by
  unfold sweepAct
  cases remaining : sweep.remaining with
  | nil => exact guarded
  | cons entry rest =>
    obtain ⟨key, mode⟩ := entry
    rw [remaining, List.head?_cons, Option.all_some, Bool.and_eq_true] at safe
    obtain ⟨ended, answer⟩ := safe
    have recovered := recover_guarded guarded ended
    simp only
    split
    case isTrue =>
      refine Guarded.frame recovered ?_ ?_ ?_ ?_
      all_goals rfl
    case isFalse live =>
      rw [not_not] at live
      cases found : sweep.found with
      | none => exact guarded
      | some seen =>
        cases seen with
        | true =>
          refine Guarded.frame recovered ?_ ?_ ?_ ?_
          all_goals rfl
        | false =>
          rw [live, found] at answer
          cases answer

theorem fastStep_guarded {state : FastState} (guarded : Guarded state) (event : FastEvent) (safe : SettledSweep state event) :
    Guarded (fastStep state event) := by
  cases event with
  | call key mode cap others => exact fire_guarded guarded key mode cap others
  | skipped key =>
    simp only [fastStep]
    cases found : state.submissions.get? key with
    | none => exact guarded
    | some submission =>
      simp only
      split
      case isFalse => exact guarded
      case isTrue =>
        refine guarded.move found (.settled false) ?_ ?_ ?_ (Or.inr ⟨?_, ?_⟩) ?_ ?_
        iterate 5 rfl
        · intro busy
          cases busy
        · intro counted
          cases counted
  | answered key status =>
    simp only [fastStep]
    cases found : state.submissions.get? key with
    | none => exact guarded
    | some submission =>
      simp only
      split
      case isFalse => exact guarded
      case isTrue wire =>
        refine guarded.move found (.answered status) ?_ ?_ ?_ (Or.inl ?_) ?_ ?_
        iterate 4 rfl
        · rw [wire]
          exact id
        · intro counted
          cases counted
  | ambiguous key =>
    simp only [fastStep]
    cases found : state.submissions.get? key with
    | none => exact guarded
    | some submission =>
      simp only
      split
      case isFalse => exact guarded
      case isTrue wire =>
        refine guarded.move found .unresolved ?_ ?_ ?_ (Or.inl ?_) ?_ ?_
        iterate 4 rfl
        · rw [wire]
          exact id
        · intro counted
          cases counted
  | persist key =>
    simp only [fastStep]
    cases found : state.submissions.get? key with
    | none => exact guarded
    | some submission =>
      cases stage : submission.stage with
      | answered status =>
        simp only [stage]
        refine guarded.move found (.persisted status) ?_ ?_ ?_ (Or.inl ?_) ?_ ?_
        iterate 4 rfl
        · rw [stage]
          exact id
        · intro counted
          cases counted
      | onWire => simpa only [stage] using guarded
      | persisted status => simpa only [stage] using guarded
      | unresolved => simpa only [stage] using guarded
      | settled countsOpen => simpa only [stage] using guarded
  | persistFailed key =>
    simp only [fastStep]
    cases found : state.submissions.get? key with
    | none => exact guarded
    | some submission =>
      cases stage : submission.stage with
      | answered status =>
        simp only [stage]
        refine guarded.move found .unresolved ?_ ?_ ?_ (Or.inl ?_) ?_ ?_
        iterate 4 rfl
        · rw [stage]
          exact id
        · intro counted
          cases counted
      | persisted status =>
        simp only [stage]
        refine guarded.move found .unresolved ?_ ?_ ?_ (Or.inl ?_) ?_ ?_
        iterate 4 rfl
        · rw [stage]
          exact id
        · intro counted
          cases counted
      | onWire => simpa only [stage] using guarded
      | unresolved => simpa only [stage] using guarded
      | settled countsOpen => simpa only [stage] using guarded
  | finish key recorded =>
    simp only [fastStep]
    cases found : state.submissions.get? key with
    | none => exact guarded
    | some submission =>
      cases stage : submission.stage with
      | persisted status =>
        simp only [stage, countsOpen_false]
        cases recorded with
        | true =>
          refine guarded.move found (.settled false) ?_ ?_ ?_ (Or.inr ⟨?_, ?_⟩) ?_ ?_
          iterate 5 rfl
          · intro busy
            cases busy
          · intro counted
            cases counted
        | false =>
          refine guarded.move found (.settled false) ?_ ?_ ?_ (Or.inl ?_) ?_ ?_
          iterate 4 rfl
          · intro busy
            cases busy
          · intro counted
            cases counted
      | onWire => simpa only [stage] using guarded
      | answered status => simpa only [stage] using guarded
      | unresolved => simpa only [stage] using guarded
      | settled countsOpen => simpa only [stage] using guarded
  | sweepStart sweep =>
    simp only [fastStep]
    split
    · exact guarded
    · refine Guarded.frame guarded ?_ ?_ ?_ ?_
      all_goals rfl
  | sweepLookup sweep =>
    simp only [fastStep]
    split
    · split
      · refine Guarded.frame guarded ?_ ?_ ?_ ?_
        all_goals rfl
      · exact guarded
    · exact guarded
  | sweepAct sweep =>
    simp only [fastStep]
    simp only [SettledSweep] at safe
    cases found : state.sweeps.get? sweep with
    | none => exact guarded
    | some running =>
      rw [found, Option.all_some] at safe
      exact sweepAct_guarded guarded sweep safe
  | sweepCommit sweep =>
    simp only [fastStep]
    split
    · split
      · refine Guarded.frame guarded ?_ ?_ ?_ ?_
        all_goals rfl
      · exact guarded
    · exact guarded
  | sweepFail sweep =>
    refine Guarded.frame guarded ?_ ?_ ?_ ?_
    all_goals rfl
  | crash forgotten reopened => exact safe.elim

/-- In a run without a crash whose sweeps close intents of ended calls only, each submission is started once and every cap is kept. -/
theorem submissions_within_cap (events : List FastEvent) (settled : Meets fastStep SettledSweep noFast events) :
    Always fastStep WithinCap noFast events := by
  have guarded : Always fastStep Guarded noFast events :=
    Runs.always_of_meets (fun _ event held ok => fastStep_guarded held event ok) noFast_guarded settled
  exact fun first isPrefix => (guarded first isPrefix).within

/-- Two signals of a trader with a cap of one, with a sweep between them that finds the first row. -/
def settledCalls : List FastEvent :=
  [.call ("t", "a") "live" (some 1) 0, .call ("t", "b") "live" (some 1) 0, .answered ("t", "a") .executed, .persist ("t", "a"),
    .persistFailed ("t", "a"), .sweepStart 0, .sweepLookup 0, .sweepAct 0, .sweepCommit 0, .call ("t", "a") "live" (some 1) 0,
    .call ("t", "b") "live" (some 1) 0]

theorem submissions_within_cap_settled : Always fastStep WithinCap noFast settledCalls :=
  submissions_within_cap settledCalls (by decide +kernel)

def sweepInFlight : List FastEvent :=
  [.call ("t", "a") "live" (some 1) 0, .sweepStart 0, .sweepLookup 0, .sweepAct 0, .sweepCommit 0, .call ("t", "b") "live" (some 1) 0]

/-- The sweep closes the intent of the call in flight, and the next call passes the cap. -/
theorem sweep_opens_cap : ¬Always fastStep WithinCap noFast sweepInFlight := by
  intro within
  have capped := (within _ List.prefix_rfl).cap "t" 1 (by decide) (by decide +kernel)
  have two : busyCount (run fastStep noFast sweepInFlight) "t" = 2 := by decide +kernel
  rw [two] at capped
  exact absurd capped (by decide)

end Callisto.Fast
