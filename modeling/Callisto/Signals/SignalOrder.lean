import Callisto.Signals.SignalRows

/-! The row keeps the newest call's content while no ORM flush is overtaken by a commit. -/

namespace Callisto.Signals

open Callisto.Library

theorem flushColumn_of_yields {α : Type} [DecidableEq α] {loaded session committed : α}
    (yields : committed ≠ loaded → session ≠ loaded) : flushColumn loaded session committed = session := by
  unfold flushColumn
  by_cases same : session = loaded
  · rw [if_pos same, same]
    exact not_not.1 fun changed => yields changed same
  · exact if_neg same

section
variable {δ : Type} [DecidableEq δ]

variable {rules : SignalRules δ} {call : SignalUpsert δ} {writer : Writer δ}

def Takes (call : SignalUpsert δ) (plan : Plan δ) : Prop :=
  ∀ session, plan = .assign session → session.runtimeSequence = some call.runtimeSequence

omit [DecidableEq δ] in
theorem takes_assigned (call : SignalUpsert δ) (row : TradeSignal δ) : Takes call (SignalRules.assigned call row) := by
  intro session planned
  cases planned
  rfl

omit [DecidableEq δ] in
theorem takes_ite {condition : Prop} [Decidable condition] {first second : Plan δ}
    (ifTrue : Takes call first) (ifFalse : Takes call second) : Takes call (if condition then first else second) := by
  by_cases holds : condition
  · rw [if_pos holds]
    exact ifTrue
  · rw [if_neg holds]
    exact ifFalse

theorem takes_plan (row : TradeSignal δ) (call : SignalUpsert δ) : Takes call (rules.plan row call) := by
  have stale : Takes call (Plan.stale : Plan δ) := fun _ impossible => by cases impossible
  have update : ∀ reactivates, Takes call (Plan.update reactivates : Plan δ) := fun _ _ impossible => by cases impossible
  have done : ∀ row, Takes call (SignalRules.assigned call row) := takes_assigned call
  exact takes_ite stale (takes_ite (takes_ite (done _) (takes_ite (done _) (takes_ite (done _)
    (takes_ite (done _) (update _))))) (done _))

theorem plan_assign {row session : TradeSignal δ} (planned : rules.plan row call = .assign session) :
    session.runtimeSequence = some call.runtimeSequence ∧ Past call.runtimeSequence row.runtimeSequence := by
  refine ⟨takes_plan row call session planned, fun held member => lt_of_not_ge fun behind => ?_⟩
  have stale : ∃ existing ∈ row.runtimeSequence, call.runtimeSequence ≤ existing := ⟨held, member, behind⟩
  unfold SignalRules.plan at planned
  rw [if_pos stale] at planned
  cases planned

namespace SignalRow

variable {state : SignalRow δ} {event : RowEvent δ}

/-- A call that goes through the ORM, and what has been committed since its SELECT: its sequence is past the row's unless one of
the commits reached it, and what the content has lost of the loaded row one of them changed. -/
structure Tracked (committed : TradeSignal δ) (since : List (RowCommit δ)) (call : SignalUpsert δ) (loaded : TradeSignal δ) : Prop where
  sequence : Past call.runtimeSequence committed.runtimeSequence ∨ ∃ commit ∈ since, call.runtimeSequence ≤ commit.sequence
  column : ∀ {α : Type} (column : TradeSignal δ → α), column committed ≠ column loaded →
    ∃ commit ∈ since, column commit.after ≠ column commit.before
  before : Past call.runtimeSequence loaded.runtimeSequence

omit [DecidableEq δ] in
theorem Tracked.commit {committed : TradeSignal δ} {since : List (RowCommit δ)} {loaded : TradeSignal δ}
    (tracked : Tracked committed since call loaded) {commit : RowCommit δ} (follows : commit.before = committed)
    (leaves : commit.after.runtimeSequence = some commit.sequence) : Tracked commit.after (commit :: since) call loaded := by
  refine ⟨?_, fun column changed => ?_, tracked.before⟩
  · by_cases ahead : commit.sequence < call.runtimeSequence
    · refine Or.inl fun held member => ?_
      rw [leaves] at member
      rwa [← Option.some.inj member]
    · exact Or.inr ⟨commit, List.mem_cons_self, not_lt.1 ahead⟩
  · by_cases here : column commit.after = column commit.before
    · rw [here, follows] at changed
      obtain ⟨earlier, member, change⟩ := tracked.column column changed
      exact ⟨earlier, List.mem_cons_of_mem _ member, change⟩
    · exact ⟨commit, List.mem_cons_self, here⟩

omit [DecidableEq δ] in
theorem Tracked.yields {committed : TradeSignal δ} {since : List (RowCommit δ)} {loaded session : TradeSignal δ}
    (tracked : Tracked committed since call loaded) {α : Type} (column : TradeSignal δ → α)
    (all : ∀ commit ∈ since, ColumnYields (column commit.before) (column commit.after) (column loaded) (column session))
    (changed : column committed ≠ column loaded) : column session ≠ column loaded := by
  obtain ⟨commit, member, change⟩ := tracked.column column changed
  exact all commit member change

theorem Tracked.content_flush {committed : TradeSignal δ} {since : List (RowCommit δ)}
    {loaded session : TradeSignal δ} (tracked : Tracked committed since call loaded)
    (yields : ∀ commit ∈ since, commit.Yields loaded session) (now : ℤ) :
    (loaded.flush now session committed).content = session.content := by
  have expiresAt := tracked.yields TradeSignal.expiresAt fun commit member => (yields commit member).expiresAt
  have payloadJson := tracked.yields TradeSignal.payloadJson fun commit member => (yields commit member).payloadJson
  have context := tracked.yields TradeSignal.strategyContextJson fun commit member => (yields commit member).strategyContextJson
  have entryPrice := tracked.yields TradeSignal.entryPrice fun commit member => (yields commit member).entryPrice
  have effectivePrice := tracked.yields TradeSignal.effectivePrice fun commit member => (yields commit member).effectivePrice
  unfold TradeSignal.flush TradeSignal.content
  rw [flushColumn_of_yields expiresAt, flushColumn_of_yields payloadJson, flushColumn_of_yields context,
    flushColumn_of_yields entryPrice, flushColumn_of_yields effectivePrice]

structure WriterSound (committed : TradeSignal δ) (since : ℕ → List (RowCommit δ)) (writer : Writer δ) : Prop where
  seen : writer.seen.runtimeSequence = some writer.call.runtimeSequence
  conditional : writer.loaded = none → Past writer.call.runtimeSequence committed.runtimeSequence ∧ writer.written = writer.seen
  flushed : ∀ loaded, writer.loaded = some loaded → (∃ now, writer.written = loaded.flush now writer.seen committed) ∧
    Tracked committed (since writer.client) writer.call loaded

theorem WriterSound.sequence {committed : TradeSignal δ} {since : ℕ → List (RowCommit δ)}
    (sound : WriterSound committed since writer) : writer.written.runtimeSequence = some writer.call.runtimeSequence := by
  cases loaded : writer.loaded with
  | none =>
    rw [(sound.conditional loaded).2]
    exact sound.seen
  | some row =>
    obtain ⟨⟨now, written⟩, tracked⟩ := sound.flushed row loaded
    have differ : some writer.call.runtimeSequence ≠ row.runtimeSequence := fun same =>
      lt_irrefl _ (tracked.before writer.call.runtimeSequence same.symm)
    rw [written]
    show flushColumn row.runtimeSequence writer.seen.runtimeSequence committed.runtimeSequence = _
    unfold flushColumn
    rw [sound.seen, if_neg differ]

structure Inv (state : SignalRow δ) : Prop where
  content : state.committed.content = state.newest.content
  sequence : state.committed.runtimeSequence = state.newest.runtimeSequence
  writer : ∀ writer, state.writer = some writer → WriterSound state.committed state.since writer
  ended : ∀ writer, state.writer = some writer → state.sessions writer.client = .ended
  flushing : ∀ client call loaded session, state.sessions client = .flushing call loaded session →
    session.runtimeSequence = some call.runtimeSequence ∧ Tracked state.committed (state.since client) call loaded

theorem inv_start (row : TradeSignal δ) : Inv (start row) := by
  constructor
  · rfl
  · rfl
  · intro writer held
    cases held
  · intro writer held
    cases held
  · intro client call loaded session found
    cases found

theorem Inv.settle_ended (inv : Inv state) (client : ℕ) : Inv (state.settle client .ended) := by
  refine { inv with ended := fun writer held => ?_, flushing := fun other call loaded row found => ?_ }
  · have earlier := inv.ended writer held
    by_cases same : writer.client = client
    · rw [same]
      exact Function.update_self ..
    · exact (Function.update_of_ne same _ _).trans earlier
  · by_cases same : other = client
    · rw [same] at found
      have here : Function.update state.sessions client .ended client = .ended := Function.update_self ..
      have ended : Session.ended = .flushing call loaded row := here.symm.trans found
      cases ended
    · have there : Function.update state.sessions client .ended other = state.sessions other := Function.update_of_ne same _ _
      exact inv.flushing other call loaded row (there.symm.trans found)

theorem Inv.lock (inv : Inv state)
    (sound : WriterSound state.committed state.since writer) : Inv (state.lock writer) :=
  { inv.settle_ended writer.client with
    writer := fun other held => by
      rw [← Option.some.inj held]
      exact sound
    ended := fun other held => by
      rw [← Option.some.inj held]
      exact Function.update_self .. }

theorem Inv.select (inv : Inv state) {client : ℕ} (idle : state.sessions client = .idle) {session : Session δ}
    (sound : ∀ call loaded row, session = .flushing call loaded row → loaded = state.committed ∧
      row.runtimeSequence = some call.runtimeSequence ∧ Past call.runtimeSequence state.committed.runtimeSequence) :
    Inv { state.settle client session with since := Function.update state.since client [] } := by
  have apart : ∀ writer, state.writer = some writer → writer.client ≠ client := by
    intro writer held same
    have ended := inv.ended writer held
    rw [same, idle] at ended
    cases ended
  refine { inv with writer := fun writer held => ?_, ended := fun writer held => ?_, flushing := fun other call loaded row found => ?_ }
  · refine { inv.writer writer held with flushed := fun loaded load => ?_ }
    change _ ∧ Tracked state.committed (Function.update state.since client [] writer.client) writer.call loaded
    rw [Function.update_of_ne (apart writer held)]
    exact (inv.writer writer held).flushed loaded load
  · exact (Function.update_of_ne (apart writer held) _ _).trans (inv.ended writer held)
  · change _ ∧ Tracked state.committed (Function.update state.since client [] other) call loaded
    by_cases same : other = client
    · rw [same] at found
      have here : Function.update state.sessions client session client = session := Function.update_self ..
      obtain ⟨now, sequence, past⟩ := sound call loaded row (here.symm.trans found)
      rw [same, Function.update_self, now]
      exact ⟨sequence, Or.inl past, fun column changed => absurd rfl changed, past⟩
    · have there : Function.update state.sessions client session other = state.sessions other := Function.update_of_ne same _ _
      rw [Function.update_of_ne same]
      exact inv.flushing other call loaded row (there.symm.trans found)

theorem inv_step_of_ne_commit (inv : Inv state) (other : event.action ≠ .commit) :
    (state.step rules event).committed = state.committed ∧ (state.step rules event).newest = state.newest ∧
      Inv (state.step rules event) := by
  unfold SignalRow.step
  cases action : event.action with
  | commit => exact absurd action other
  | select call =>
    simp only
    split
    · rename_i idle
      refine ⟨rfl, rfl, inv.select idle fun held loaded row planned => ?_⟩
      cases found : rules.plan state.committed call with
      | stale =>
        rw [found] at planned
        cases planned
      | update reactivates =>
        rw [found] at planned
        cases planned
      | assign session =>
        rw [found] at planned
        cases planned
        exact ⟨rfl, plan_assign found⟩
    · exact ⟨rfl, rfl, inv⟩
  | write now =>
    simp only
    by_cases locked : state.writer.isSome = true
    · rw [if_pos locked]
      exact ⟨rfl, rfl, inv⟩
    · rw [if_neg locked]
      split
      · rename_i call reactivates found
        by_cases past : Past call.runtimeSequence state.committed.runtimeSequence
        · rw [if_pos past]
          refine ⟨rfl, rfl, inv.lock ⟨rfl, fun _ => ⟨past, rfl⟩, fun loaded impossible => by cases impossible⟩⟩
        · rw [if_neg past]
          exact ⟨rfl, rfl, inv.settle_ended event.client⟩
      · rename_i call loaded session found
        have sound := inv.flushing event.client call loaded session found
        refine ⟨rfl, rfl, inv.lock ⟨sound.1, fun impossible => (by cases impossible), fun row same => ?_⟩⟩
        cases same
        exact ⟨⟨now, rfl⟩, sound.2⟩
      · exact ⟨rfl, rfl, inv⟩
  | rollback =>
    have ended := inv.settle_ended event.client
    refine ⟨rfl, rfl, { ended with writer := fun writer held => ?_, ended := fun writer held => ?_ }⟩
    · exact inv.writer writer (Option.filter_eq_some_iff.1 held).1
    · exact ended.ended writer (Option.filter_eq_some_iff.1 held).1

theorem inv_commit (inv : Inv state) (action : event.action = .commit)
    (held : state.writer = some writer) (own : writer.client = event.client) : state.step rules event =
      { state with
        committed := writer.written
        writer := none
        newest := if Past writer.call.runtimeSequence state.committed.runtimeSequence then writer.seen else state.newest
        since := fun client => ⟨writer.call.runtimeSequence, state.committed, writer.written⟩ :: state.since client } := by
  unfold SignalRow.step
  simp only [action, held]
  rw [if_pos own, inv.sequence]

theorem step_commit_other (action : event.action = .commit)
    (other : ∀ writer, state.writer = some writer → writer.client ≠ event.client) : state.step rules event = state := by
  unfold SignalRow.step
  simp only [action]
  cases held : state.writer with
  | none => rfl
  | some writer =>
    simp only
    rw [if_neg (other writer held)]

/-- A commit that is not overtaken is of a sequence past the row's and leaves the content that its session sees. -/
theorem commit_sound (inv : Inv state) (held : state.writer = some writer)
    (unovertaken : ∀ loaded ∈ writer.loaded, ∀ commit ∈ state.since writer.client,
      commit.sequence < writer.call.runtimeSequence ∧ commit.Yields loaded writer.seen) :
    Past writer.call.runtimeSequence state.committed.runtimeSequence ∧ writer.written.content = writer.seen.content := by
  have sound := inv.writer writer held
  cases load : writer.loaded with
  | none =>
    obtain ⟨past, written⟩ := sound.conditional load
    exact ⟨past, congrArg TradeSignal.content written⟩
  | some loaded =>
    obtain ⟨⟨now, written⟩, tracked⟩ := sound.flushed loaded load
    have since := unovertaken loaded load
    refine ⟨tracked.sequence.resolve_right ?_, ?_⟩
    · rintro ⟨commit, member, reached⟩
      exact absurd (since commit member).1 reached.not_gt
    · rw [written]
      exact tracked.content_flush (fun commit member => (since commit member).2) now

theorem kept_of_same (inv : Inv state)
    (committed : (state.step rules event).committed = state.committed) (newest : (state.step rules event).newest = state.newest) :
    Kept rules state event := by
  constructor
  · intro before member
    rw [committed]
    exact ⟨before, member, le_refl before⟩
  · intro writer held stale
    exact committed
  · rw [committed, newest]
    exact inv.content
  · rw [committed, newest]
    exact inv.sequence

theorem kept_commit (inv : Inv state) (action : event.action = .commit)
    (held : state.writer = some writer) (own : writer.client = event.client)
    (past : Past writer.call.runtimeSequence state.committed.runtimeSequence) (content : writer.written.content = writer.seen.content) :
    Kept rules state event := by
  have sound := inv.writer writer held
  have step := @inv_commit δ _ rules writer state event inv action held own
  constructor
  · intro before member
    rw [step]
    exact ⟨writer.call.runtimeSequence, sound.sequence, le_of_lt (past before member)⟩
  · intro other same stale
    rw [held] at same
    rw [← Option.some.inj same] at stale
    exact absurd past stale
  · rw [step]
    simp only [if_pos past]
    exact content
  · rw [step]
    simp only [if_pos past]
    rw [sound.sequence, sound.seen]

theorem step_kept (inv : Inv state) (unovertaken : Unovertaken state event) :
    Kept rules state event ∧ Inv (state.step rules event) := by
  by_cases action : event.action = .commit
  · by_cases other : ∀ writer, state.writer = some writer → writer.client ≠ event.client
    · have step := @step_commit_other δ _ rules state event action other
      refine ⟨kept_of_same inv (congrArg committed step) (congrArg newest step), ?_⟩
      rw [step]
      exact inv
    · push Not at other
      obtain ⟨writer, held, own⟩ := other
      obtain ⟨past, content⟩ := commit_sound inv held (unovertaken action writer held own)
      have kept := @kept_commit δ _ rules writer state event inv action held own past content
      have step := @inv_commit δ _ rules writer state event inv action held own
      refine ⟨kept, kept.content, kept.newest, fun later impossible => ?_, fun later impossible => ?_,
        fun client call loaded session found => ?_⟩
      · rw [step] at impossible
        cases impossible
      · rw [step] at impossible
        cases impossible
      · rw [step] at found ⊢
        have flushing := inv.flushing client call loaded session found
        have leaves := (inv.writer writer held).sequence
        exact ⟨flushing.1, @Tracked.commit δ call _ _ loaded flushing.2 ⟨_, state.committed, writer.written⟩ rfl leaves⟩
  · have step := @inv_step_of_ne_commit δ _ rules state event inv action
    exact ⟨kept_of_same inv step.1 step.2.1, step.2.2⟩

end SignalRow

/-- In any interleaving, every step keeps the sequence, the stale calls and the newest content as it should, provided no ORM
flush is committed over a newer call or over content that it did not select and leaves alone. -/
theorem newest_kept (rules : SignalRules δ) (row : TradeSignal δ) (events : List (RowEvent δ))
    (unovertaken : Runs.Meets (SignalRow.step rules) SignalRow.Unovertaken (SignalRow.start row) events) :
    Runs.Meets (SignalRow.step rules) (SignalRow.Kept rules) (SignalRow.start row) events := by
  refine Runs.Meets.imp ?_ ?_ (SignalRow.inv_start row) unovertaken
  · intro state event inv apart
    exact (SignalRow.step_kept inv apart).2
  · intro state event inv apart
    exact (SignalRow.step_kept inv apart).1

end

def plainRules : SignalRules String :=
  ⟨id, fun payload _ _ => payload.getD Dict.empty, fun now => toString now, id, fun _ => true, fun _ => none, 0⟩

def pendingSignal : TradeSignal String :=
  ⟨"scanner", none, "edge", none, "m", none, none, some (1 / 2), none, none, none, some 100, some Dict.empty, none, none, none,
    "pending", none, some 0, some 0, some 1⟩

def signalCall (entryPrice : ℚ) (expiresAt runtimeSequence : ℤ) : SignalUpsert String :=
  ⟨"scanner", none, "edge", none, "m", none, none, some entryPrice, none, none, none, some expiresAt, some Dict.empty, none, none,
    none, runtimeSequence, 10⟩

/-- Two refreshes overlap, the one of sequence 3 before the one of sequence 5; an update follows, and a call that comes too late. -/
def overlappingRefreshes : List (RowEvent String) :=
  [⟨0, .select (signalCall (1 / 2) 200 5)⟩, ⟨1, .select (signalCall (1 / 2) 150 3)⟩, ⟨1, .write 20⟩, ⟨1, .commit⟩, ⟨0, .write 30⟩,
    ⟨0, .commit⟩, ⟨2, .select (signalCall (3 / 4) 300 10)⟩, ⟨2, .write 40⟩, ⟨2, .commit⟩, ⟨3, .select (signalCall (1 / 2) 250 7)⟩, ⟨3, .write 50⟩]

theorem newest_kept_refreshes :
    Runs.Meets (SignalRow.step plainRules) (SignalRow.Kept plainRules) (SignalRow.start pendingSignal) overlappingRefreshes ∧
      (Runs.run (SignalRow.step plainRules) (SignalRow.start pendingSignal) overlappingRefreshes).committed.runtimeSequence = some 10 :=
  ⟨newest_kept plainRules pendingSignal overlappingRefreshes (by decide +kernel), by decide +kernel⟩

/-- A refresh of sequence 5 selects the row, an update of sequence 10 commits, and the refresh flushes over it. -/
def overtakenRefresh : List (RowEvent String) :=
  [⟨0, .select (signalCall (1 / 2) 200 5)⟩, ⟨1, .select (signalCall (3 / 4) 300 10)⟩, ⟨1, .write 20⟩,
    ⟨1, .commit⟩, ⟨0, .write 30⟩, ⟨0, .commit⟩]

theorem overtaken_refresh_lowers_sequence : ¬∀ events : List (RowEvent String),
    Runs.Meets (SignalRow.step plainRules) (SignalRow.Kept plainRules) (SignalRow.start pendingSignal) events := by
  intro kept
  have last := (kept overtakenRefresh).2.2.2.2.2.1
  have lowered := last.sequence 10 (by decide +kernel)
  exact absurd lowered (by decide +kernel)

end Callisto.Signals
