import Callisto.Fast.FastSubmit
import Callisto.Library.Runs

/-! No order of the fast path is without an owner: an open intent or a committed row, over crashes and sweeps. -/

namespace Callisto.Fast

open Callisto.Library Runs

def Rowed (state : FastState) (key : Key) : Prop := ∃ row ∈ state.rows, row.key = key

/-- Every live order that the venue may hold has an open intent or a committed row, and no trader and signal has two rows. -/
structure NoOrphan (state : FastState) : Prop where
  owned : ∀ key ∈ state.held, (∃ intent, state.intents.get? key = some intent ∧ intent.isOpen = true) ∨ Rowed state key
  single : ∀ key, (state.rows.filter fun row => row.key = key).length ≤ 1

/-- A sweep finds the row of every live intent that it handles, and no crash follows a compaction that dropped a finished intent. -/
def RowFound (state : FastState) : FastEvent → Prop
  | .crash forgotten _ => forgotten = []
  | .sweepAct sweep => (state.sweeps.get? sweep).all fun running => running.remaining.head?.all fun entry =>
      entry.2 ≠ "live" || running.found ≠ some false
  | _ => True

instance (state : FastState) : ∀ event, Decidable (RowFound state event)
  | .crash forgotten _ => inferInstanceAs (Decidable (forgotten = []))
  | .sweepAct sweep => inferInstanceAs (Decidable ((state.sweeps.get? sweep).all _ = true))
  | .call _ _ _ _ => isTrue trivial
  | .skipped _ => isTrue trivial
  | .answered _ _ => isTrue trivial
  | .ambiguous _ => isTrue trivial
  | .persist _ => isTrue trivial
  | .persistFailed _ => isTrue trivial
  | .finish _ _ => isTrue trivial
  | .sweepStart _ => isTrue trivial
  | .sweepLookup _ => isTrue trivial
  | .sweepCommit _ => isTrue trivial
  | .sweepFail _ => isTrue trivial

def Stage.waiting : Stage → Bool
  | .onWire | .answered _ => true
  | _ => false

def Stage.isPersisted : Stage → Bool
  | .persisted _ => true
  | _ => false

structure SweepOk (state : FastState) (sweep : Sweep) : Prop where
  staged : sweep.staged = []
  known : ∀ entry ∈ sweep.remaining, ∃ intent, state.intents.get? entry.1 = some intent ∧ intent.mode = entry.2
  found : sweep.found = some true → ∀ entry, sweep.remaining.head? = some entry → Rowed state entry.1

/-- The owners of every key, with what the running calls and sweeps rely on. -/
structure Owned (state : FastState) : Prop where
  absent : ∀ key, state.intents.get? key = none → state.submissions.get? key = none ∧ ¬Rowed state key
  held : ∀ key ∈ state.held, ∃ intent, state.intents.get? key = some intent ∧ intent.mode = "live" ∧ (intent.isOpen = true ∨ Rowed state key)
  waiting : ∀ key submission, state.submissions.get? key = some submission → submission.stage.waiting = true → ¬Rowed state key
  persisted : ∀ key submission, state.submissions.get? key = some submission → submission.stage.isPersisted = true → Rowed state key
  single : ∀ key, (state.rows.filter fun row => row.key = key).length ≤ 1
  sweeps : ∀ id sweep, state.sweeps.get? id = some sweep → SweepOk state sweep

variable {state next : FastState} {submission : Submission}

theorem Rowed.of_rows (rows : next.rows = state.rows) (key : Key) (rowed : Rowed state key) : Rowed next key := by
  unfold Rowed
  rw [rows]
  exact rowed

theorem Owned.noOrphan (owned : Owned state) : NoOrphan state := by
  constructor
  · intro key member
    obtain ⟨intent, found, -, owner⟩ := owned.held key member
    exact owner.imp (fun opened => ⟨intent, found, opened⟩) id
  · exact owned.single

theorem noFast_owned : Owned noFast := by
  have noRow : ∀ key, ¬Rowed noFast key := by
    intro key rowed
    obtain ⟨row, member, -⟩ := rowed
    cases member
  constructor
  · exact fun key _ => ⟨rfl, noRow key⟩
  · exact fun _ member => absurd member List.not_mem_nil
  · exact fun key _ _ _ => noRow key
  · intro key submission found
    cases found
  · exact fun _ => Nat.zero_le 1
  · intro id sweep found
    cases found

/-- The intents of a state are still there in the next, with their modes, and open ones are closed only where there is a row or the
venue holds nothing. -/
def Kept (state next : FastState) : Prop :=
  ∀ key intent, state.intents.get? key = some intent → ∃ now, next.intents.get? key = some now ∧ now.mode = intent.mode ∧
    (key ∈ next.held → intent.isOpen = true → now.isOpen = true ∨ Rowed state key)

theorem SweepOk.kept {sweep : Sweep} (ok : SweepOk state sweep) (kept : Kept state next)
    (rows : ∀ key, Rowed state key → Rowed next key) : SweepOk next sweep := by
  constructor
  · exact ok.staged
  · intro entry member
    obtain ⟨intent, found, mode⟩ := ok.known entry member
    obtain ⟨now, here, same, -⟩ := kept entry.1 intent found
    exact ⟨now, here, same.trans mode⟩
  · exact fun seen entry head => rows entry.1 (ok.found seen entry head)

theorem Owned.quiet (owned : Owned state) (rows : next.rows = state.rows)
    (held : ∀ key ∈ next.held, key ∈ state.held) (kept : Kept state next)
    (submitted : ∀ key submission, next.submissions.get? key = some submission → ∃ old, state.submissions.get? key = some old ∧
      (submission.stage.waiting = true → old.stage.waiting = true) ∧ (submission.stage.isPersisted = true → old.stage.isPersisted = true))
    (sweeps : ∀ id sweep, next.sweeps.get? id = some sweep → SweepOk next sweep) : Owned next := by
  have sameRowed : ∀ key, Rowed next key ↔ Rowed state key := by
    intro key
    unfold Rowed
    rw [rows]
  constructor
  · intro key missing
    have before : state.intents.get? key = none := by
      by_contra some_
      obtain ⟨intent, found⟩ := Option.ne_none_iff_exists'.1 some_
      obtain ⟨now, here, -⟩ := kept key intent found
      rw [missing] at here
      cases here
    obtain ⟨noSubmission, noRow⟩ := owned.absent key before
    constructor
    · by_contra some_
      obtain ⟨submission, found⟩ := Option.ne_none_iff_exists'.1 some_
      obtain ⟨old, there, -⟩ := submitted key submission found
      rw [noSubmission] at there
      cases there
    · rw [sameRowed]
      exact noRow
  · intro key member
    obtain ⟨intent, found, live, owner⟩ := owned.held key (held key member)
    obtain ⟨now, here, mode, still⟩ := kept key intent found
    refine ⟨now, here, mode.trans live, ?_⟩
    rw [sameRowed]
    cases owner with
    | inl opened => exact still member opened
    | inr rowed => exact Or.inr rowed
  · intro key submission found waits
    obtain ⟨old, there, waited, -⟩ := submitted key submission found
    rw [sameRowed]
    exact owned.waiting key old there (waited waits)
  · intro key submission found persisted
    obtain ⟨old, there, -, before⟩ := submitted key submission found
    rw [sameRowed]
    exact owned.persisted key old there (before persisted)
  · rw [rows]
    exact owned.single
  · exact sweeps

theorem Kept.refl (state : FastState) : Kept state state :=
  fun _ intent found => ⟨intent, found, rfl, fun _ opened => Or.inl opened⟩

theorem Kept.close {key : Key} (intents : next.intents = closeIntent state.intents key)
    (safe : key ∈ next.held → Rowed state key) : Kept state next := by
  intro other intent found
  rw [intents]
  unfold closeIntent
  rw [Dict.get?_set]
  by_cases own : key = other
  · subst own
    rw [if_pos rfl, found]
    exact ⟨_, rfl, rfl, fun member _ => Or.inr (safe member)⟩
  · rw [if_neg own]
    exact ⟨intent, found, rfl, fun _ opened => Or.inl opened⟩

theorem Owned.move (owned : Owned state) {key : Key}
    (found : state.submissions.get? key = some submission) (stage : Stage) (rows : next.rows = state.rows)
    (held : ∀ key ∈ next.held, key ∈ state.held) (kept : Kept state next)
    (submissions : next.submissions = state.submissions.set key { submission with stage := stage })
    (sweeps : next.sweeps = state.sweeps) (waiting : stage.waiting = true → submission.stage.waiting = true)
    (persisted : stage.isPersisted = true → submission.stage.isPersisted = true) : Owned next := by
  apply owned.quiet rows held kept
  · intro other now here
    rw [submissions, Dict.get?_set] at here
    by_cases own : key = other
    · rw [if_pos own] at here
      subst own
      cases here
      exact ⟨submission, found, waiting, persisted⟩
    · rw [if_neg own] at here
      exact ⟨now, here, id, id⟩
  · rw [sweeps]
    intro id sweep running
    apply (owned.sweeps id sweep running).kept kept
    exact Rowed.of_rows rows

theorem fire_owned (owned : Owned state) (key : Key) (mode : String) (cap : Option ℤ) (others : ℕ) :
    Owned (fire state key mode cap others) := by
  have recorded : Owned { state with calls := state.calls ++ [(key.1, cap)] } :=
    ⟨owned.absent, owned.held, owned.waiting, owned.persisted, owned.single, fun id sweep running =>
      let ok := owned.sweeps id sweep running
      ⟨ok.staged, ok.known, ok.found⟩⟩
  unfold fire
  simp only
  split
  case isTrue => exact recorded
  case isFalse unknown =>
    split
    case isTrue => exact recorded
    case isFalse =>
      rw [Bool.not_eq_true, Option.isSome_eq_false_iff, Option.isNone_iff_eq_none] at unknown
      obtain ⟨noSubmission, noRow⟩ := owned.absent key unknown
      constructor
      · intro other missing
        have here : (state.intents.set key ⟨mode, true⟩).get? other = none := missing
        rw [Dict.get?_set] at here
        by_cases own : key = other
        · rw [if_pos own] at here
          cases here
        · rw [if_neg own] at here
          obtain ⟨none_, row⟩ := owned.absent other here
          refine ⟨?_, row⟩
          show (state.submissions.set key ⟨mode, .onWire⟩).get? other = none
          rw [Dict.get?_set, if_neg own]
          exact none_
      · intro other member
        show ∃ intent, (state.intents.set key ⟨mode, true⟩).get? other = some intent ∧ _
        rw [Dict.get?_set]
        by_cases own : key = other
        · rw [if_pos own]
          refine ⟨_, rfl, ?_, Or.inl rfl⟩
          have listed : other ∈ (if mode = "live" then state.held ++ [key] else state.held) := member
          by_cases live : mode = "live"
          · exact live
          · rw [if_neg live] at listed
            obtain ⟨intent, found, -⟩ := owned.held other listed
            rw [← own, unknown] at found
            cases found
        · rw [if_neg own]
          apply owned.held other
          have listed : other ∈ (if mode = "live" then state.held ++ [key] else state.held) := member
          split at listed
          · cases List.mem_append.1 listed with
            | inl before => exact before
            | inr new => exact absurd (List.mem_singleton.1 new).symm own
          · exact listed
      · intro other submission found waits
        have here : (state.submissions.set key ⟨mode, .onWire⟩).get? other = some submission := found
        rw [Dict.get?_set] at here
        by_cases own : key = other
        · exact own ▸ noRow
        · rw [if_neg own] at here
          exact owned.waiting other submission here waits
      · intro other submission found persisted
        have here : (state.submissions.set key ⟨mode, .onWire⟩).get? other = some submission := found
        rw [Dict.get?_set] at here
        by_cases own : key = other
        · rw [if_pos own] at here
          cases here
          cases persisted
        · rw [if_neg own] at here
          exact owned.persisted other submission here persisted
      · exact owned.single
      · intro id sweep running
        have ok := owned.sweeps id sweep running
        refine ⟨ok.staged, fun entry member => ?_, ok.found⟩
        obtain ⟨intent, found, same⟩ := ok.known entry member
        have other : ¬key = entry.1 := by
          intro own
          rw [← own, unknown] at found
          cases found
        exact ⟨intent, by show (state.intents.set key ⟨mode, true⟩).get? entry.1 = _; rw [Dict.get?_set, if_neg other]; exact found, same⟩

theorem persist_owned (owned : Owned state) {key : Key} {status : OrderStatus}
    (found : state.submissions.get? key = some submission) (answered : submission.stage = .answered status) :
    Owned { setStage state key submission (.persisted status) with rows := state.rows ++ [⟨key, false⟩] } := by
  have fresh : ¬Rowed state key := by
    apply owned.waiting key submission found
    rw [answered]
    rfl
  have known : state.intents.get? key ≠ none := by
    intro missing
    have gone := (owned.absent key missing).1
    rw [found] at gone
    cases gone
  have rowed : ∀ other, Rowed { setStage state key submission (.persisted status) with rows := state.rows ++ [⟨key, false⟩] } other ↔
      Rowed state other ∨ key = other := by
    intro other
    show (∃ row ∈ state.rows ++ [(⟨key, false⟩ : Row)], row.key = other) ↔ _
    constructor
    · intro some_
      obtain ⟨row, member, same⟩ := some_
      cases List.mem_append.1 member with
      | inl before => exact Or.inl ⟨row, before, same⟩
      | inr new =>
        rw [List.mem_singleton.1 new] at same
        exact Or.inr same
    · intro either
      cases either with
      | inl before =>
        obtain ⟨row, member, same⟩ := before
        exact ⟨row, List.mem_append_left _ member, same⟩
      | inr own => exact ⟨⟨key, false⟩, List.mem_append_right _ List.mem_cons_self, own⟩
  have submitted : ∀ other now, (state.submissions.set key { submission with stage := .persisted status }).get? other = some now →
      key = other ∧ now.stage = .persisted status ∨ key ≠ other ∧ state.submissions.get? other = some now := by
    intro other now here
    rw [Dict.get?_set] at here
    by_cases own : key = other
    · rw [if_pos own] at here
      cases here
      exact Or.inl ⟨own, rfl⟩
    · rw [if_neg own] at here
      exact Or.inr ⟨own, here⟩
  constructor
  · intro other missing
    obtain ⟨noSubmission, noRow⟩ := owned.absent other missing
    have different : ¬key = other := fun own => known (own ▸ missing)
    constructor
    · show (state.submissions.set key { submission with stage := .persisted status }).get? other = none
      rw [Dict.get?_set, if_neg different]
      exact noSubmission
    · rw [rowed]
      exact fun either => either.elim noRow different
  · intro other member
    obtain ⟨intent, here, live, owner⟩ := owned.held other member
    refine ⟨intent, here, live, owner.imp id fun before => ?_⟩
    rw [rowed]
    exact Or.inl before
  · intro other now here waits
    cases submitted other now here with
    | inl own =>
      rw [own.2] at waits
      cases waits
    | inr before =>
      rw [rowed]
      exact fun either => either.elim (owned.waiting other now before.2 waits) before.1
  · intro other now here persisted
    rw [rowed]
    cases submitted other now here with
    | inl own => exact Or.inr own.1
    | inr before => exact Or.inl (owned.persisted other now before.2 persisted)
  · intro other
    show ((state.rows ++ [(⟨key, false⟩ : Row)]).filter fun row => row.key = other).length ≤ 1
    rw [List.filter_append, List.length_append]
    by_cases own : key = other
    · have none_ : state.rows.filter (fun row => row.key = other) = [] := by
        rw [List.filter_eq_nil_iff]
        intro row member same
        exact fresh ⟨row, member, (of_decide_eq_true same).trans own.symm⟩
      rw [none_, List.length_nil, Nat.zero_add]
      exact List.length_filter_le _ [(⟨key, false⟩ : Row)]
    · have before := owned.single other
      simp only [List.filter_cons, own, decide_false, Bool.false_eq_true, if_false, List.filter_nil, List.length_nil]
      omega
  · intro id sweep running
    apply (owned.sweeps id sweep running).kept
    · exact fun _ intent found => ⟨intent, found, rfl, fun _ opened => Or.inl opened⟩
    · intro other before
      rw [rowed]
      exact Or.inl before

theorem recover_owned (owned : Owned state) {key : Key} (safe : key ∈ state.held → Rowed state key) :
    Owned (recoverIntent state key true) ∧ Kept state (recoverIntent state key true) ∧ (recoverIntent state key true).rows = state.rows ∧
      (recoverIntent state key true).sweeps = state.sweeps := by
  have kept : ∀ next : FastState, next.intents = closeIntent state.intents key → next.held = state.held → Kept state next := by
    intro next intents held
    apply Kept.close intents
    rw [held]
    exact safe
  have sweeps : ∀ next : FastState, Kept state next → next.rows = state.rows → next.sweeps = state.sweeps →
      ∀ id sweep, next.sweeps.get? id = some sweep → SweepOk next sweep := by
    intro next kept rows same id sweep running
    rw [same] at running
    apply (owned.sweeps id sweep running).kept kept
    exact Rowed.of_rows rows
  unfold recoverIntent
  cases found : state.submissions.get? key with
  | none =>
    have keeps := kept { state with intents := closeIntent state.intents key } rfl rfl
    refine ⟨owned.quiet ?_ ?_ keeps ?_ (sweeps _ keeps rfl rfl), keeps, rfl, rfl⟩
    · rfl
    · exact fun _ member => member
    · exact fun other submission here => ⟨submission, here, id, id⟩
  | some submission =>
    simp only [true_and]
    split
    case isTrue ended =>
      have keeps := kept (setStage { state with intents := closeIntent state.intents key } key submission (.settled false)) rfl rfl
      refine ⟨owned.move found (.settled false) ?_ ?_ keeps ?_ ?_ ?_ ?_, keeps, rfl, rfl⟩
      · rfl
      · exact fun _ member => member
      · rfl
      · rfl
      · intro waits
        cases waits
      · intro persisted
        cases persisted
    case isFalse =>
      have keeps := kept { state with intents := closeIntent state.intents key } rfl rfl
      refine ⟨owned.quiet ?_ ?_ keeps ?_ (sweeps _ keeps rfl rfl), keeps, rfl, rfl⟩
      · rfl
      · exact fun _ member => member
      · exact fun other submission here => ⟨submission, here, id, id⟩

theorem Owned.withSweeps (owned : Owned state) {sweeps : Dict ℕ Sweep}
    (ok : ∀ id sweep, sweeps.get? id = some sweep → SweepOk state sweep) : Owned { state with sweeps := sweeps } := by
  refine Owned.quiet owned ?_ ?_ (Kept.refl state) ?_ ?_
  · rfl
  · exact fun _ member => member
  · exact fun key submission found => ⟨submission, found, id, id⟩
  · intro id sweep running
    have held := ok id sweep running
    exact ⟨held.staged, held.known, held.found⟩

theorem sweepAct_owned (owned : Owned state) {id : ℕ} {sweep : Sweep} (running : state.sweeps.get? id = some sweep)
    (safe : (sweep.remaining.head?.all fun entry => entry.2 ≠ "live" || sweep.found ≠ some false) = true) :
    Owned (sweepAct state id sweep) := by
  have ok := owned.sweeps id sweep running
  unfold sweepAct
  cases remaining : sweep.remaining with
  | nil => exact owned
  | cons entry rest =>
    obtain ⟨key, mode⟩ := entry
    have closing : (key ∈ state.held → Rowed state key) →
        Owned { recoverIntent state key true with sweeps := state.sweeps.set id { sweep with remaining := rest, found := none } } := by
      intro row
      obtain ⟨recovered, kept, rows, sweeps⟩ := recover_owned owned row
      apply recovered.withSweeps
      intro other now here
      rw [Dict.get?_set] at here
      split at here
      case isTrue =>
        cases here
        have advanced : SweepOk state { sweep with remaining := rest, found := none } := by
          constructor
          · exact ok.staged
          · intro entry member
            apply ok.known
            rw [remaining]
            exact List.mem_cons_of_mem _ member
          · intro seen
            cases seen
        apply advanced.kept kept
        exact Rowed.of_rows rows
      case isFalse =>
        apply (owned.sweeps other now here).kept kept
        exact Rowed.of_rows rows
    simp only
    split
    case isTrue shadow =>
      apply closing
      intro member
      obtain ⟨intent, found, live, -⟩ := owned.held key member
      obtain ⟨known, here, same⟩ := ok.known (key, mode) (by rw [remaining]; exact List.mem_cons_self)
      rw [found] at here
      cases here
      exact absurd (same.symm.trans live) shadow
    case isFalse live =>
      cases found : sweep.found with
      | none => exact owned
      | some seen =>
        cases seen with
        | true =>
          apply closing
          intro _
          exact ok.found found (key, mode) (by rw [remaining]; rfl)
        | false =>
          rw [not_not] at live
          rw [remaining, List.head?_cons, Option.all_some, live, found] at safe
          cases safe

theorem restart_kept (state : FastState) (reopened : List Key) :
    Kept state (fastStep state (.crash [] reopened)) := by
  intro key intent found
  show ∃ now, (state.intents.mapValues fun key intent => if key ∈ reopened then { intent with isOpen := true } else intent).get? key =
    some now ∧ _
  rw [Dict.get?_mapValues, found]
  refine ⟨_, rfl, ?_, fun _ opened => Or.inl ?_⟩
  · split <;> rfl
  · split
    · rfl
    · exact opened

theorem fastStep_owned (owned : Owned state) (event : FastEvent) (safe : RowFound state event) :
    Owned (fastStep state event) := by
  cases event with
  | call key mode cap others => exact fire_owned owned key mode cap others
  | skipped key =>
    simp only [fastStep]
    cases found : state.submissions.get? key with
    | none => exact owned
    | some submission =>
      simp only
      split
      case isFalse => exact owned
      case isTrue =>
        have kept : Kept state { setStage state key submission (.settled false) with
            intents := closeIntent state.intents key
            held := state.held.filter (· ≠ key) } := by
          apply Kept.close
          · rfl
          · intro member
            have out := of_decide_eq_true (List.mem_filter.1 member).2
            exact absurd rfl out
        refine owned.move found (.settled false) ?_ ?_ kept ?_ ?_ ?_ ?_
        · rfl
        · exact fun other member => (List.mem_filter.1 member).1
        · rfl
        · rfl
        · intro waits
          cases waits
        · intro persisted
          cases persisted
  | answered key status =>
    simp only [fastStep]
    cases found : state.submissions.get? key with
    | none => exact owned
    | some submission =>
      simp only
      split
      case isFalse => exact owned
      case isTrue wire =>
        refine owned.move found (.answered status) ?_ ?_ (Kept.refl state) ?_ ?_ ?_ ?_
        · rfl
        · exact fun _ member => member
        · rfl
        · rfl
        · rw [wire]
          exact fun _ => rfl
        · intro persisted
          cases persisted
  | ambiguous key =>
    simp only [fastStep]
    cases found : state.submissions.get? key with
    | none => exact owned
    | some submission =>
      simp only
      split
      case isFalse => exact owned
      case isTrue =>
        refine owned.move found .unresolved ?_ ?_ (Kept.refl state) ?_ ?_ ?_ ?_
        · rfl
        · exact fun _ member => member
        · rfl
        · rfl
        · intro waits
          cases waits
        · intro persisted
          cases persisted
  | persist key =>
    simp only [fastStep]
    cases found : state.submissions.get? key with
    | none => exact owned
    | some submission =>
      cases stage : submission.stage with
      | answered status =>
        simp only [stage]
        exact persist_owned owned found stage
      | onWire => simpa only [stage] using owned
      | persisted status => simpa only [stage] using owned
      | unresolved => simpa only [stage] using owned
      | settled countsOpen => simpa only [stage] using owned
  | persistFailed key =>
    simp only [fastStep]
    cases found : state.submissions.get? key with
    | none => exact owned
    | some submission =>
      have failed : Owned (setStage state key submission .unresolved) := by
        refine owned.move found .unresolved ?_ ?_ (Kept.refl state) ?_ ?_ ?_ ?_
        · rfl
        · exact fun _ member => member
        · rfl
        · rfl
        · intro waits
          cases waits
        · intro persisted
          cases persisted
      cases stage : submission.stage with
      | answered status => simpa only [stage] using failed
      | persisted status => simpa only [stage] using failed
      | onWire => simpa only [stage] using owned
      | unresolved => simpa only [stage] using owned
      | settled countsOpen => simpa only [stage] using owned
  | finish key recorded =>
    simp only [fastStep]
    cases found : state.submissions.get? key with
    | none => exact owned
    | some submission =>
      cases stage : submission.stage with
      | persisted status =>
        simp only [stage]
        have row : Rowed state key := by
          apply owned.persisted key submission found
          rw [stage]
          rfl
        have kept : Kept state { setStage state key submission (.settled status.countsOpen) with
            intents := if recorded then closeIntent state.intents key else state.intents } := by
          cases recorded with
          | true =>
            apply Kept.close
            · rfl
            · exact fun _ => row
          | false => exact fun _ intent found => ⟨intent, found, rfl, fun _ opened => Or.inl opened⟩
        refine owned.move found (.settled status.countsOpen) ?_ ?_ kept ?_ ?_ ?_ ?_
        · rfl
        · exact fun _ member => member
        · rfl
        · rfl
        · intro waits
          cases waits
        · intro persisted
          cases persisted
      | onWire => simpa only [stage] using owned
      | answered status => simpa only [stage] using owned
      | unresolved => simpa only [stage] using owned
      | settled countsOpen => simpa only [stage] using owned
  | sweepStart sweep =>
    simp only [fastStep]
    split
    · exact owned
    · apply owned.withSweeps
      intro id now running
      rw [Dict.get?_set] at running
      split at running
      · cases running
        constructor
        · rfl
        · intro entry member
          obtain ⟨held, listed, rfl⟩ := List.mem_map.1 member
          exact ⟨held.2, Dict.get?_of_mem (List.mem_filter.1 listed).1, rfl⟩
        · intro seen
          cases seen
      · exact owned.sweeps id now running
  | sweepLookup sweep =>
    simp only [fastStep]
    cases found : state.sweeps.get? sweep with
    | none => exact owned
    | some running =>
      have ok := owned.sweeps sweep running found
      cases remaining : running.remaining with
      | nil => simpa only [remaining] using owned
      | cons entry rest =>
        simp only [remaining]
        apply owned.withSweeps
        intro id now here
        rw [Dict.get?_set] at here
        split at here
        · cases here
          constructor
          · exact ok.staged
          · rw [← remaining]
            exact ok.known
          · intro seen head first
            have row := Option.some.inj seen
            rw [List.any_eq_true] at row
            obtain ⟨row, member, same⟩ := row
            have own : entry = head := Option.some.inj first
            exact ⟨row, member, own ▸ of_decide_eq_true same⟩
        · exact owned.sweeps id now here
  | sweepAct sweep =>
    simp only [fastStep]
    simp only [RowFound] at safe
    cases found : state.sweeps.get? sweep with
    | none => exact owned
    | some running =>
      rw [found, Option.all_some] at safe
      exact sweepAct_owned owned found safe
  | sweepCommit sweep =>
    simp only [fastStep]
    cases found : state.sweeps.get? sweep with
    | none => exact owned
    | some running =>
      simp only
      split
      case isFalse => exact owned
      case isTrue =>
        rw [(owned.sweeps sweep running found).staged]
        apply owned.withSweeps
        intro id now here
        rw [Dict.get?_erase] at here
        split at here
        · cases here
        · exact owned.sweeps id now here
  | sweepFail sweep =>
    apply owned.withSweeps
    intro id now here
    rw [Dict.get?_erase] at here
    split at here
    · cases here
    · exact owned.sweeps id now here
  | crash forgotten reopened =>
    have nothing : forgotten = [] := safe
    rw [nothing]
    apply owned.quiet
    · rfl
    · exact fun _ member => member
    · exact restart_kept state reopened
    · intro key submission found
      cases found
    · intro id sweep running
      cases running

/-- In a run whose sweeps find the rows of the live intents that they close, no order is without an owner and no row comes twice. -/
theorem fast_orders_owned (events : List FastEvent) (found : Meets fastStep RowFound noFast events) :
    Always fastStep NoOrphan noFast events := by
  have owned : Always fastStep Owned noFast events :=
    Runs.always_of_meets (fun _ event held ok => fastStep_owned held event ok) noFast_owned found
  exact fun first isPrefix => (owned first isPrefix).noOrphan

/-- A crash after the commit of a row, before its result; the sweep after the restart finds the row. -/
def crashAfterCommit : List FastEvent :=
  [.call ("t", "a") "live" none 0, .call ("t", "b") "shadow" none 0, .answered ("t", "a") .executed, .persist ("t", "a"),
    .crash [] [], .sweepStart 0, .sweepLookup 0, .sweepAct 0, .sweepAct 0, .sweepCommit 0]

theorem fast_orders_owned_crash : Always fastStep NoOrphan noFast crashAfterCommit :=
  fast_orders_owned crashAfterCommit (by decide +kernel)

def failedSweep : List FastEvent :=
  [.call ("t", "a") "live" none 0, .ambiguous ("t", "a"), .sweepStart 0, .sweepLookup 0, .sweepAct 0, .sweepFail 0]

/-- The intent is closed and there is no row. -/
theorem failed_sweep_orphans : ¬Always fastStep NoOrphan noFast failedSweep := by
  intro owned
  have closed : (run fastStep noFast failedSweep).intents.get? ("t", "a") = some ⟨"live", false⟩ := by decide +kernel
  have noRow : (run fastStep noFast failedSweep).rows = [] := by decide +kernel
  cases (owned _ List.prefix_rfl).owned ("t", "a") (by decide +kernel) with
  | inl opened =>
    obtain ⟨intent, found, isOpen⟩ := opened
    rw [closed] at found
    cases found
    cases isOpen
  | inr rowed =>
    obtain ⟨row, member, -⟩ := rowed
    rw [noRow] at member
    cases member

end Callisto.Fast
