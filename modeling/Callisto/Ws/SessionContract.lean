import Callisto.Ws.SessionHistory

/-! What a frame session promises over a run of connections and frames. -/

namespace Callisto.Ws

open Callisto.Library Callisto.Library.Runs KalshiV2WSFrameSession

namespace Observed

theorem move_receive (ops : TextOps) {observed : Observed} (sound : observed.Sound) {epochId : ℤ}
    (current : observed.session.IsCurrent epochId) (frame : Frame) :
    Move ops observed.session epochId frame (observed.session.receiveFrame ops epochId frame).1
      (observed.session.receiveFrame ops epochId frame).2 := by
  have isOpen : observed.session.lifecycle.Open epochId := ⟨current.2, (sound.epoch epochId current.2).2⟩
  have rooted : observed.session.Rooted := by
    refine ⟨fun emitted => ?_, sound.rooted⟩
    obtain ⟨largest, failed⟩ := Option.isSome_iff_exists.1 ((sound.emitted epochId current).1 emitted)
    obtain ⟨-, state, held, -⟩ := sound.failing largest failed
    rw [held]
    rfl
  exact move_frame isOpen rooted frame

theorem sound_step (ops : TextOps) {observed : Observed} (sound : observed.Sound) (event : SessionEvent) :
    (observed.step ops event).Sound := by
  cases event with
  | begin headers timestampMs => exact sound_begin sound headers timestampMs
  | receive epochId payload =>
    by_cases current : observed.session.IsCurrent epochId
    · simp only [step, receive, if_pos current]
      exact sound_follow sound current (move_receive ops sound current _)
    · simp only [step, receive, if_neg current]
      exact sound

/-- The book shows nothing but the exact continuation of the accepted snapshot. -/
def Shown (observed : Observed) : Prop :=
  ∀ state, observed.session.lifecycle.orderbookState = some state → Watched.Shown ⟨state, observed.accepted⟩

/-- A delta of the current epoch makes a sum that the decimal context does not round. -/
def ExactSum (ops : TextOps) (observed : Observed) : SessionEvent → Prop
  | .begin _ _ => True
  | .receive epochId payload =>
    observed.session.IsCurrent epochId →
      match decodeFrame ops payload, observed.session.lifecycle.orderbookState with
      | .delta delta, some state => Watched.ExactSum ⟨state, observed.accepted⟩ (.delta delta)
      | _, _ => True

instance (ops : TextOps) (observed : Observed) (event : SessionEvent) : Decidable (observed.ExactSum ops event) := by
  unfold ExactSum
  cases event with
  | begin headers timestampMs => exact isTrue trivial
  | receive epochId payload =>
    have : Decidable (match decodeFrame ops payload, observed.session.lifecycle.orderbookState with
        | .delta delta, some state => Watched.ExactSum ⟨state, observed.accepted⟩ (.delta delta)
        | _, _ => True) := by
      split <;> infer_instance
    infer_instance

theorem shown_begin {observed : Observed} (shown : observed.Shown)
    (headers : Except LifecycleError (List (String × String))) (timestampMs : ℤ) :
    (observed.begin headers timestampMs).Shown := by
  unfold begin
  rcases begin_cases observed.session headers timestampMs with
    ⟨text, result⟩ | ⟨started, rfl, ⟨text, result⟩ | ⟨instructions, commands, result⟩⟩
  · simp only [result, if_true]
    exact shown
  · have moved : ¬ observed.session.lifecycle.epochCounter + 1 = observed.session.lifecycle.epochCounter := by omega
    simp only [result, if_neg moved]
    intro state held
    cases held
  · have moved : ¬ observed.session.lifecycle.epochCounter + 1 = observed.session.lifecycle.epochCounter := by omega
    simp only [result, if_neg moved]
    intro state held
    cases held

section
variable {ops : TextOps} {observed : Observed} {epochId : ℤ} {frame : Frame} {session : KalshiV2WSFrameSession}
  {outcome : SessionOutcome}

/-- A book that one call of the orderbook changed, with what the call adds to the history. -/
theorem shown_of_step {state : KalshiOrderbookState} {accepted : Option Accepted} (call : OrderbookCall)
    (shown : Watched.Shown ⟨state, accepted⟩) (exactSum : Watched.ExactSum ⟨state, accepted⟩ call) :
    Watched.Shown ⟨(state.apply call).1, Watched.record accepted call (state.apply call).2⟩ :=
  (Watched.shown_step_iff call shown).2 exactSum

theorem shown_follow (shown : observed.Shown) (current : observed.session.IsCurrent epochId)
    (exactSum : ∀ delta state, frame = .delta delta → observed.session.lifecycle.orderbookState = some state →
      Watched.ExactSum ⟨state, observed.accepted⟩ (.delta delta))
    (move : Move ops observed.session epochId frame session outcome) :
    (observed.follow epochId frame session outcome).Shown := by
  have goes := @follow_going observed epochId frame session outcome
  cases move with
  | closes _ reason text =>
    rw [follow_closed]
    intro state held
    cases held
  | acknowledgesStream response channel sids asked named stream =>
    rw [goes current.2]
    have other : ¬ response.channel = Channel.orderbookDelta.name := by
      rw [named]
      revert stream
      cases channel <;> decide
    intro state held
    simp only [note, if_neg other]
    have before := shown state held
    cases observed.session.lifecycle.earlySnapshot with
    | none => exact before
    | some snapshot => exact before
  | acknowledgesBook response state sids asked named new early fresh =>
    rw [goes current.2]
    rintro other held view visible
    cases held
    have valid := (KalshiOrderbookState.view_eq_some_iff.1 visible).1
    simp only [fresh.1] at valid
    cases valid
  | acknowledgesEarly response snapshot state sids asked named new early applied =>
    rw [goes current.2]
    rintro other held view visible
    cases held
    simp only [applied.1] at visible
    cases visible
    refine ⟨⟨snapshot, []⟩, ?_, continues_viewOf snapshot⟩
    simp only [note, early, if_pos named]
  | storesEarly snapshot waiting result =>
    rw [goes current.2]
    simp only [note, result]
    intro state held
    simp only [waiting] at held
    cases held
  | refusesSnapshot snapshot text result =>
    rw [goes current.2]
    simp only [note, result]
    exact shown
  | acceptsSnapshot snapshot state applied view held reaches application result =>
    rw [goes current.2]
    simp only [note, result]
    intro other otherHeld
    cases otherHeld
    have after := shown_of_step (.snapshot snapshot) (shown state held) trivial
    simp only [KalshiOrderbookState.apply, application, Watched.record] at after
    exact after
  | continues delta state applied view minimum held application result =>
    rw [goes current.2]
    simp only [note, result]
    intro other otherHeld
    cases otherHeld
    have after := shown_of_step (.delta delta) (shown state held) (exactSum delta state rfl held)
    simp only [KalshiOrderbookState.apply, application, Watched.record] at after
    exact after
  | failsAgain delta state applied text minimum held application watermark emitted result =>
    rw [goes current.2]
    simp only [note, result]
    intro other otherHeld
    cases otherHeld
    have after := shown_of_step (.delta delta) (shown state held) (exactSum delta state rfl held)
    simp only [KalshiOrderbookState.apply, application, Watched.record] at after
    exact after
  | fails delta state applied text minimum recovery held application watermark silent needed result =>
    rw [goes current.2]
    simp only [note, result]
    intro other otherHeld
    cases otherHeld
    have after := shown_of_step (.delta delta) (shown state held) (exactSum delta state rfl held)
    simp only [KalshiOrderbookState.apply, application, Watched.record] at after
    exact after
  | surfaces channel sid rawSid msg =>
    rw [goes current.2]
    exact shown

def Recovering (largest : ℤ) (after : Observed) : Frame → Prop
  | .delta delta => after.failure = some (max largest delta.seq)
  | .snapshot snapshot => after.failure = some largest ∨
      after.failure = none ∧ largest ≤ snapshot.seq ∧ after.accepted = some ⟨snapshot, []⟩
  | _ => after.failure = some largest

theorem recovering_follow (sound : observed.Sound) (move : Move ops observed.session epochId frame session outcome)
    (going : session.lifecycle.currentEpochId = some epochId) {largest : ℤ}
    (failed : observed.failure = some largest) :
    Recovering largest (observed.follow epochId frame session outcome) frame := by
  rw [follow_going going]
  obtain ⟨⟨least, known, reached⟩, lost, lostHeld, hidden⟩ := sound.failing largest failed
  cases move with
  | closes _ reason text => cases going
  | acknowledgesStream response channel sids asked named stream => exact failed
  | acknowledgesBook response state sids asked named new early fresh => exact failed
  | acknowledgesEarly response snapshot state sids asked named new early applied => exact failed
  | storesEarly snapshot waiting result =>
    simp only [Recovering, note, result]
    exact Or.inl failed
  | refusesSnapshot snapshot text result =>
    simp only [Recovering, note, result]
    exact Or.inl failed
  | acceptsSnapshot snapshot state applied view held reaches application result =>
    simp only [Recovering, note, result]
    exact Or.inr ⟨trivial, reached.trans (reaches least known), trivial⟩
  | continues delta state applied view minimum held application result =>
    rw [held] at lostHeld
    cases lostHeld
    rcases lost.applyDelta_cases delta with
      ⟨-, text, refused⟩ | ⟨_, visible, _⟩ | ⟨_, visible, _⟩
    · rw [refused] at application
      cases application
    · rw [hidden] at visible
      cases visible
    · rw [hidden] at visible
      cases visible
  | failsAgain delta state applied text minimum held application watermark emitted result =>
    simp only [Recovering, note, result, failed, Option.getD_some]
  | fails delta state applied text minimum recovery held application watermark silent needed result =>
    simp only [Recovering, note, result, failed, Option.getD_some]
  | surfaces channel sid rawSid msg => cases channel <;> exact failed

theorem requested_follow (sound : observed.Sound) (current : observed.session.IsCurrent epochId)
    (move : Move ops observed.session epochId frame session outcome) :
    (requestedId outcome).isSome ↔
      observed.failure = none ∧ (observed.follow epochId frame session outcome).failure.isSome := by
  have emits := sound.emitted epochId current
  have goes := @follow_going observed epochId frame session outcome
  cases move with
  | closes _ reason text =>
    rw [follow_closed]
    simp [requestedId]
  | acknowledgesStream response channel sids asked named stream =>
    rw [goes current.2]
    simp +contextual [note]
  | acknowledgesBook response state sids asked named new early fresh =>
    rw [goes current.2]
    simp +contextual [note]
  | acknowledgesEarly response snapshot state sids asked named new early applied =>
    rw [goes current.2]
    simp +contextual [note]
  | storesEarly snapshot waiting result =>
    rw [goes current.2]
    simp +contextual [note, result, requestedId]
  | refusesSnapshot snapshot text result =>
    rw [goes current.2]
    simp +contextual [note, result, requestedId]
  | acceptsSnapshot snapshot state applied view held reaches application result =>
    rw [goes current.2]
    simp [note, result]
  | continues delta state applied view minimum held application result =>
    rw [goes current.2]
    simp +contextual [note, result]
  | failsAgain delta state applied text minimum held application watermark emitted result =>
    have failed := emits.1 emitted
    simp only [requestedId, Option.isSome_none, Bool.false_eq_true, false_iff]
    rintro ⟨calm, -⟩
    rw [calm] at failed
    cases failed
  | fails delta state applied text minimum recovery held application watermark silent needed result =>
    rw [goes current.2]
    have calm : observed.failure = none := by
      have notFailed := emits.not.1 (by simp [silent])
      simpa using notFailed
    simp [note, result, requestedId, calm]
  | surfaces channel sid rawSid msg =>
    rw [goes current.2]
    simp +contextual [note, requestedId]

theorem orderbookView_of_published {shownEpoch : ℤ} {view : KalshiOrderbookView}
    (move : Move ops observed.session epochId frame session (.published shownEpoch view)) :
    shownEpoch = epochId ∧ session.lifecycle.orderbookView = some view := by
  have acked : ∀ lifecycle, ackOutcome lifecycle epochId = .published shownEpoch view →
      shownEpoch = epochId ∧ lifecycle.orderbookView = some view := by
    intro lifecycle outcome
    unfold ackOutcome at outcome
    split at outcome
    · cases outcome
      exact ⟨rfl, ‹_›⟩
    · cases outcome
  have viewed : ∀ state minimum reason other, state.view = some other →
      viewOutcome (withBook observed.session.lifecycle state minimum) epochId other reason =
        .published shownEpoch view →
      shownEpoch = epochId ∧ (withBook observed.session.lifecycle state minimum).orderbookView = some view := by
    intro state minimum reason other visible outcome
    unfold viewOutcome at outcome
    split_ifs at outcome with publishable
    cases outcome
    refine ⟨rfl, ?_⟩
    rw [KalshiV2WSLifecycle.orderbookView, if_pos publishable]
    exact visible
  generalize shownOutcome : SessionOutcome.published shownEpoch view = outcome at move
  cases move with
  | acknowledgesStream response channel sids asked named stream => exact acked _ shownOutcome.symm
  | acknowledgesBook response state sids asked named new early fresh => exact acked _ shownOutcome.symm
  | acknowledgesEarly response snapshot state sids asked named new early applied => exact acked _ shownOutcome.symm
  | acceptsSnapshot snapshot state applied other held reaches application result =>
    refine viewed applied none _ other ?_ shownOutcome.symm
    rcases state.applySnapshot_cases snapshot with ⟨-, -, accepted⟩ | ⟨-, visible, repeated⟩ | ⟨text, refused⟩
    · rw [accepted] at application
      cases application
      rfl
    · rw [repeated] at application
      cases application
      exact visible
    · rw [refused] at application
      cases application
  | continues delta state applied other minimum held application result =>
    refine viewed applied minimum _ other ?_ shownOutcome.symm
    rcases state.applyDelta_cases delta with
      ⟨-, text, refused⟩ | ⟨_, _, _, _, text, refused⟩ | ⟨before, visible, _, _, continued⟩
    · rw [refused] at application
      cases application
    · rw [refused] at application
      cases application
    · rw [continued] at application
      cases application
      exact KalshiOrderbookState.view_eq_some_iff.2 ⟨(KalshiOrderbookState.view_eq_some_iff.1 visible).1, rfl⟩
  | closes _ reason text => cases shownOutcome
  | storesEarly snapshot waiting result => cases shownOutcome
  | refusesSnapshot snapshot text result => cases shownOutcome
  | failsAgain delta state applied text minimum held application watermark emitted result => cases shownOutcome
  | fails delta state applied text minimum recovery held application watermark silent needed result =>
    cases shownOutcome
  | surfaces channel sid rawSid msg => cases shownOutcome

theorem lost_follow (sound : observed.Sound)
    {delta : KalshiOrderbookDelta} (move : Move ops observed.session epochId (.delta delta) session outcome)
    (going : session.lifecycle.currentEpochId = some epochId) {state : KalshiOrderbookState}
    {current : KalshiOrderbookView} (held : observed.session.lifecycle.orderbookState = some state)
    (visible : state.view = some current) (breaks : Watched.Breaks current delta) :
    (observed.follow epochId (.delta delta) session outcome).failure = some delta.seq := by
  have calm := (calm_of_visible sound held visible).1
  have broken : (state.applyDelta delta).1 = state.invalidate :=
    @Watched.hidden_of_breaks ⟨state, none⟩ current delta visible breaks
  have failed : ∀ text, (observed.session.lifecycle.receiveDelta epochId delta).2 = .error text →
      (observed.follow epochId (.delta delta) session outcome).failure = some delta.seq := by
    intro text result
    rw [follow_going going]
    simp only [note, result, calm, Option.getD_none, max_self]
  cases move with
  | closes _ reason text => cases going
  | continues _ other applied view minimum otherHeld application result =>
    rw [held] at otherHeld
    cases otherHeld
    rcases state.applyDelta_cases delta with ⟨_, _, refused⟩ | ⟨_, _, _, _, _, refused⟩ | ⟨_, _, _, _, continued⟩
    · rw [refused] at application
      cases application
    · rw [refused] at application
      cases application
    · rw [continued] at broken
      have valid := congrArg KalshiOrderbookState.valid broken
      simp only [(KalshiOrderbookState.view_eq_some_iff.1 visible).1, KalshiOrderbookState.invalidate] at valid
      cases valid
  | failsAgain _ other applied text minimum otherHeld application watermark emitted result => exact failed text result
  | fails _ other applied text minimum recovery otherHeld application watermark silent needed result =>
    exact failed text result

theorem ackOutcome_ne_terminated (lifecycle : KalshiV2WSLifecycle) (endedId : ℤ) (reason : String) :
    ackOutcome lifecycle epochId ≠ .terminated endedId reason := by
  unfold ackOutcome
  split <;> simp

theorem viewOutcome_ne_terminated (lifecycle : KalshiV2WSLifecycle) (view : KalshiOrderbookView) (text : String)
    (endedId : ℤ) (reason : String) : viewOutcome lifecycle epochId view text ≠ .terminated endedId reason := by
  unfold viewOutcome
  split <;> simp

theorem epoch_of_move (current : observed.session.IsCurrent epochId)
    (move : Move ops observed.session epochId frame session outcome) :
    session.lifecycle.epochCounter = observed.session.lifecycle.epochCounter ∧ session.epochId = some epochId ∧
      (session.lifecycle.currentEpochId = some epochId ∧ (∀ endedId reason, outcome ≠ .terminated endedId reason) ∨
        session.lifecycle.currentEpochId = none ∧ ∃ reason, outcome = .terminated epochId reason) := by
  cases move with
  | closes _ reason text => exact ⟨rfl, current.1, Or.inr ⟨rfl, text, rfl⟩⟩
  | acknowledgesStream => exact ⟨rfl, current.1, Or.inl ⟨current.2, ackOutcome_ne_terminated _⟩⟩
  | acknowledgesBook => exact ⟨rfl, current.1, Or.inl ⟨current.2, ackOutcome_ne_terminated _⟩⟩
  | acknowledgesEarly => exact ⟨rfl, current.1, Or.inl ⟨current.2, ackOutcome_ne_terminated _⟩⟩
  | acceptsSnapshot => exact ⟨rfl, current.1, Or.inl ⟨current.2, viewOutcome_ne_terminated _ _ _⟩⟩
  | continues => exact ⟨rfl, current.1, Or.inl ⟨current.2, viewOutcome_ne_terminated _ _ _⟩⟩
  | _ => exact ⟨rfl, current.1, Or.inl ⟨current.2, by simp⟩⟩

end

theorem acknowledged_all {acknowledged : Dict Channel ℤ} (full : acknowledged.entries.length = channels.length)
    (channel : Channel) : (acknowledged.get? channel).isSome := by
  have known : ∀ other : Channel, other ∈ channels := by
    intro other
    cases other <;> decide
  have sub : acknowledged.entries.map Prod.fst ⊆ channels := fun other _ => known other
  have same : (acknowledged.entries.map Prod.fst).Perm channels :=
    (List.subperm_of_subset acknowledged.nodup sub).perm_of_length_le (by simp [full])
  rw [Option.isSome_iff_ne_none, Dict.get?, Ne, Dict.find_eq_none_iff]
  exact not_not.2 (same.mem_iff.2 (known channel))

/-- The view is let out of the epoch: every channel was acknowledged under its own command, and the view
is the exact contiguous continuation of a snapshot accepted in the epoch. -/
structure Publishes (observed : Observed) (epochId : ℤ) (view : KalshiOrderbookView) : Prop where
  current : observed.session.IsCurrent epochId
  acknowledged : ∀ channel, ∃ command ∈ observed.subscriptions, command.channel = channel ∧
    (command.commandId, channel.name) ∈ observed.acks
  continued : ∃ accepted, observed.accepted = some accepted ∧ Continues view accepted
  calm : observed.failure = none

variable {observed : Observed}

theorem publishes_of_orderbookView (sound : observed.Sound) (shown : observed.Shown)
    {epochId : ℤ} {view : KalshiOrderbookView} (current : observed.session.IsCurrent epochId)
    (visible : observed.session.lifecycle.orderbookView = some view) : observed.Publishes epochId view := by
  unfold KalshiV2WSLifecycle.orderbookView at visible
  split_ifs at visible with publishable
  obtain ⟨state, held, seen⟩ := Option.bind_eq_some_iff.1 visible
  have full : observed.session.lifecycle.acknowledged.entries.length = channels.length := by
    simp only [KalshiV2WSLifecycle.orderbookPublishable, Bool.and_eq_true, decide_eq_true_eq] at publishable
    exact publishable.1.2
  exact ⟨current, fun channel => sound.acked channel (acknowledged_all full channel), shown state held view seen,
    (calm_of_visible sound held seen).1⟩

structure Promises (ops : TextOps) (before : Observed) (epochId : ℤ) (payload : Json) : Prop where
  published : ∀ shownEpoch view, before.outcome ops epochId payload = .published shownEpoch view →
    shownEpoch = epochId ∧ (before.receive ops epochId payload).Publishes epochId view
  stale : ¬ before.session.IsCurrent epochId → (before.session.receive ops epochId payload).1 = before.session
  lost : ∀ delta state current, before.session.IsCurrent epochId → decodeFrame ops payload = .delta delta →
    before.session.lifecycle.orderbookState = some state → state.view = some current →
      Watched.Breaks current delta →
        (before.receive ops epochId payload).session.lifecycle.currentEpochId = some epochId →
          (before.receive ops epochId payload).failure = some delta.seq
  hidden : ∀ largest, before.failure = some largest → before.session.IsCurrent epochId →
    (before.receive ops epochId payload).session.lifecycle.currentEpochId = some epochId →
      Recovering largest (before.receive ops epochId payload) (decodeFrame ops payload)
  requested : (requestedId (before.outcome ops epochId payload)).isSome ↔
    before.failure = none ∧ (before.receive ops epochId payload).failure.isSome

/-- Once it is endedId, no later frame or connection brings an epoch back. -/
def Over (epochId : ℤ) (observed : Observed) : Prop :=
  epochId ≤ observed.session.lifecycle.epochCounter ∧ observed.session.lifecycle.currentEpochId ≠ some epochId

structure Contract (ops : TextOps) (start : Observed) (events : List SessionEvent) : Prop where
  promised : ∀ first epochId payload, first ++ [.receive epochId payload] <+: events →
    Promises ops (run (step ops) start first) epochId payload
  ended : ∀ first epochId payload endedId reason, first ++ [.receive epochId payload] <+: events →
    (run (step ops) start first).outcome ops epochId payload = .terminated endedId reason →
      ∀ later otherEpoch otherPayload view,
        first ++ .receive epochId payload :: (later ++ [.receive otherEpoch otherPayload]) <+: events →
          (run (step ops) start (first ++ .receive epochId payload :: later)).outcome ops otherEpoch otherPayload ≠
            .published endedId view
  ascending : (run (step ops) start events).issued.Pairwise (· < ·)

theorem current_of_published {ops : TextOps} (sound : observed.Sound) {epochId shownEpoch : ℤ}
    {payload : Json} {view : KalshiOrderbookView}
    (published : observed.outcome ops epochId payload = .published shownEpoch view) :
    shownEpoch = epochId ∧ observed.session.IsCurrent epochId := by
  by_cases current : observed.session.IsCurrent epochId
  · have move := move_receive ops sound current (decodeFrame ops payload)
    simp only [Observed.outcome, KalshiV2WSFrameSession.receive, if_pos current] at published
    rw [published] at move
    exact ⟨(orderbookView_of_published move).1, current⟩
  · simp only [Observed.outcome, KalshiV2WSFrameSession.receive, if_neg current] at published
    cases published

theorem shown_step {ops : TextOps} (sound : observed.Sound) (shown : observed.Shown)
    (event : SessionEvent) (exactSum : observed.ExactSum ops event) : (observed.step ops event).Shown := by
  cases event with
  | begin headers timestampMs => exact shown_begin shown headers timestampMs
  | receive epochId payload =>
    by_cases current : observed.session.IsCurrent epochId
    · simp only [step, receive, if_pos current]
      refine shown_follow shown current (fun delta state decoded held => ?_) (move_receive ops sound current _)
      have admitted := exactSum current
      simpa only [decoded, held] using admitted
    · simp only [step, receive, if_neg current]
      exact shown

theorem promises_of_sound {ops : TextOps} {before : Observed} (sound : before.Sound) (shown : before.Shown)
    (epochId : ℤ) (payload : Json) (exactSum : before.ExactSum ops (.receive epochId payload)) :
    Promises ops before epochId payload := by
  by_cases current : before.session.IsCurrent epochId
  · have move := move_receive ops sound current (decodeFrame ops payload)
    have after : before.receive ops epochId payload = before.follow epochId (decodeFrame ops payload)
        (before.session.receiveFrame ops epochId (decodeFrame ops payload)).1
        (before.session.receiveFrame ops epochId (decodeFrame ops payload)).2 := if_pos current
    have outcome : before.outcome ops epochId payload =
        (before.session.receiveFrame ops epochId (decodeFrame ops payload)).2 := by
      simp only [Observed.outcome, KalshiV2WSFrameSession.receive, if_pos current]
    have session : (before.receive ops epochId payload).session =
        (before.session.receiveFrame ops epochId (decodeFrame ops payload)).1 := by
      rw [after, session_follow]
    constructor
    · intro shownEpoch view published
      rw [outcome] at published
      have soundAfter : (before.receive ops epochId payload).Sound := sound_step ops sound (.receive epochId payload)
      have shownAfter : (before.receive ops epochId payload).Shown :=
        shown_step sound shown (.receive epochId payload) exactSum
      obtain ⟨-, begun, ⟨kept, -⟩ | ⟨-, reason, ended⟩⟩ := epoch_of_move current move
      · rw [published] at move
        obtain ⟨rfl, visible⟩ := orderbookView_of_published move
        rw [← session] at begun kept visible
        exact ⟨rfl, publishes_of_orderbookView soundAfter shownAfter ⟨begun, kept⟩ visible⟩
      · rw [published] at ended
        cases ended
    · exact fun stale => absurd current stale
    · intro delta state view _ decoded held visible breaks going
      rw [session] at going
      rw [after]
      rw [decoded] at move going ⊢
      exact lost_follow sound move going held visible breaks
    · intro largest failed _ going
      rw [session] at going
      rw [after]
      exact recovering_follow sound move going failed
    · rw [outcome, after]
      exact requested_follow sound current move
  · have same : before.receive ops epochId payload = before := if_neg current
    have outcome : before.outcome ops epochId payload = .noOp epochId "stale_epoch" := by
      simp only [Observed.outcome, KalshiV2WSFrameSession.receive, if_neg current]
    constructor
    · intro shownEpoch view published
      rw [outcome] at published
      cases published
    · intro _
      simp only [KalshiV2WSFrameSession.receive, if_neg current]
    · exact fun _ _ _ present => absurd present current
    · exact fun _ _ present => absurd present current
    · rw [outcome, same]
      simp +contextual [requestedId]

theorem over_of_started {endedId counter : ℤ} (reached : endedId ≤ counter) :
    endedId ≤ counter + 1 ∧ some (counter + 1) ≠ some endedId := by
  refine ⟨by omega, fun same => ?_⟩
  have equal := Option.some.inj same
  omega

theorem over_step (ops : TextOps) (sound : observed.Sound) {endedId : ℤ}
    (ended : observed.Over endedId) (event : SessionEvent) : (observed.step ops event).Over endedId := by
  cases event with
  | begin headers timestampMs =>
    simp only [step, begin]
    rcases begin_cases observed.session headers timestampMs with
      ⟨text, result⟩ | ⟨started, rfl, ⟨text, result⟩ | ⟨instructions, commands, result⟩⟩
    · simp only [result, if_true]
      exact ended
    · have moved : ¬ observed.session.lifecycle.epochCounter + 1 = observed.session.lifecycle.epochCounter := by omega
      simp only [result, if_neg moved]
      exact over_of_started ended.1
    · have moved : ¬ observed.session.lifecycle.epochCounter + 1 = observed.session.lifecycle.epochCounter := by omega
      simp only [result, if_neg moved]
      exact over_of_started ended.1
  | receive epochId payload =>
    by_cases current : observed.session.IsCurrent epochId
    · have move := move_receive ops sound current (decodeFrame ops payload)
      obtain ⟨counter, -, ⟨kept, -⟩ | ⟨gone, -⟩⟩ := epoch_of_move current move
      · simp only [step, receive, if_pos current, Over, session_follow, counter, kept]
        rw [← current.2]
        exact ended
      · simp only [step, receive, if_pos current, Over, session_follow, counter, gone]
        exact ⟨ended.1, by simp⟩
    · simp only [step, receive, if_neg current]
      exact ended

theorem over_of_terminated {ops : TextOps} (sound : observed.Sound) {epochId endedId : ℤ}
    {payload : Json} {reason : String} (outcome : observed.outcome ops epochId payload = .terminated endedId reason) :
    (observed.receive ops epochId payload).Over endedId := by
  by_cases current : observed.session.IsCurrent epochId
  · have move := move_receive ops sound current (decodeFrame ops payload)
    simp only [Observed.outcome, KalshiV2WSFrameSession.receive, if_pos current] at outcome
    obtain ⟨known, -⟩ := sound.epoch epochId current.2
    obtain ⟨counter, -, ⟨-, going⟩ | ⟨gone, text, ended⟩⟩ := epoch_of_move current move
    · exact absurd outcome (going endedId reason)
    · rw [outcome] at ended
      cases ended
      have after : (observed.receive ops epochId payload).session =
          (observed.session.receiveFrame ops epochId (decodeFrame ops payload)).1 := by
        simp only [receive, if_pos current, session_follow]
      unfold Over
      rw [after, counter, gone]
      exact ⟨known.le, by simp⟩
  · simp only [Observed.outcome, KalshiV2WSFrameSession.receive, if_neg current] at outcome
    cases outcome

theorem sound_run (ops : TextOps) {start : Observed} (sound : start.Sound) (events : List SessionEvent) :
    (run (step ops) start events).Sound :=
  @invariant_all _ _ (step ops) Sound (fun _ event held => sound_step ops held event) _ sound events

theorem shown_fresh (marketTicker marketId : String) : (fresh marketTicker marketId).Shown := by
  intro state held
  cases held

theorem over_run (ops : TextOps) {start : Observed} (sound : start.Sound) {endedId : ℤ} (ended : start.Over endedId)
    (events : List SessionEvent) : (run (step ops) start events).Over endedId :=
  (@invariant_all _ _ (step ops) (fun observed => observed.Sound ∧ observed.Over endedId)
    (fun _ event held => ⟨sound_step ops held.1 event, over_step ops held.1 held.2 event⟩) _ ⟨sound, ended⟩ events).2

/-- A session keeps its contract endedId every run in which no delta of a current epoch makes a sum of more
significant digits than the decimal context keeps. -/
theorem contract_of_exactSum (ops : TextOps) (marketTicker marketId : String) (events : List SessionEvent)
    (meets : Meets (step ops) (ExactSum ops) (fresh marketTicker marketId) events) :
    Contract ops (fresh marketTicker marketId) events := by
  have start := sound_fresh marketTicker marketId
  have reached : ∀ first, first <+: events → (run (step ops) (fresh marketTicker marketId) first).Sound ∧
      (run (step ops) (fresh marketTicker marketId) first).Shown := by
    rintro first ⟨rest, rfl⟩
    exact @invariant _ _ (step ops) (ExactSum ops) (fun observed => observed.Sound ∧ observed.Shown)
      (fun _ event held admitted => ⟨sound_step ops held.1 event, shown_step held.1 held.2 event admitted⟩) _ _
      ⟨start, shown_fresh marketTicker marketId⟩ meets.of_append.1
  constructor
  · intro first epochId payload isPrefix
    obtain ⟨sound, shown⟩ := reached first ((List.prefix_append first _).trans isPrefix)
    obtain ⟨rest, rfl⟩ := isPrefix
    rw [List.append_assoc] at meets
    exact promises_of_sound sound shown epochId payload meets.of_append.2.1
  · intro first epochId payload endedId reason _ terminated later otherEpoch otherPayload view _ published
    have sound := sound_run ops start first
    have ended := over_of_terminated sound terminated
    have stillOver := over_run ops (sound_step ops sound (.receive epochId payload)) ended later
    rw [run_append, run_cons] at published
    have soundLater := sound_run ops start (first ++ .receive epochId payload :: later)
    rw [run_append, run_cons] at soundLater
    obtain ⟨rfl, current⟩ := current_of_published soundLater published
    exact stillOver.2 current.2
  · exact (sound_run ops start events).ascending

def tableOps : TextOps where
  decimal
    | "0.50" => some ⟨50, -2⟩
    | "0.02" => some ⟨2, -2⟩
    | "10.00" => some ⟨1000, -2⟩
    | "99999999999999999999999999.99" => some ⟨9999999999999999999999999999, -2⟩
    | _ => none
  isUuid text := text = "9b0f6b43-5b68-4f9f-9f02-9a2d1b8ac1a1"

def subscribedPayload (commandId : ℤ) (channel : String) (sid : ℤ) : Json :=
  .obj [("type", .str "subscribed"), ("id", .int commandId),
    ("msg", .obj [("channel", .str channel), ("sid", .int sid)])]

def bookPayload (type : String) (seq : ℤ) (fields : Fields) : Json :=
  .obj [("type", .str type), ("sid", .int 7), ("seq", .int seq), ("msg", .obj
    ([("market_ticker", .str "FED-23DEC-T3.00"), ("market_id", .str "9b0f6b43-5b68-4f9f-9f02-9a2d1b8ac1a1")] ++ fields))]

/-- A connection whose channels are acknowledged and whose first level holds the quantity. -/
def opening (quantity : String) : List SessionEvent :=
  [.begin (.ok []) 1, .receive 1 (subscribedPayload 1 "orderbook_delta" 7),
    .receive 1 (subscribedPayload 2 "user_orders" 8), .receive 1 (subscribedPayload 3 "fill" 9),
    .receive 1 (bookPayload "orderbook_snapshot" 1 [("yes_dollars_fp", .arr [.arr [.str "0.50", .str quantity]])])]

def smallPayload : Json :=
  bookPayload "orderbook_delta" 2 [("price_dollars", .str "0.50"), ("delta_fp", .str "0.02"), ("side", .str "yes")]

def level? : SessionOutcome → Option ℤ
  | .published _ view => some (view.yesLevels.quantityAt 500000)
  | _ => none

theorem contract_ten_contracts :
    Contract tableOps (fresh "FED-23DEC-T3.00" "9b0f6b43-5b68-4f9f-9f02-9a2d1b8ac1a1")
        (opening "10.00" ++ [.receive 1 smallPayload]) ∧
      level? ((run (step tableOps) (fresh "FED-23DEC-T3.00" "9b0f6b43-5b68-4f9f-9f02-9a2d1b8ac1a1")
        (opening "10.00")).outcome tableOps 1 smallPayload) = some 1002 :=
  ⟨contract_of_exactSum _ _ _ _ (by decide +kernel), by decide +kernel⟩

/-- The full level is published at `10 ^ 28` hundredths where the exact sum is one more. -/
theorem not_contract_full_level :
    ¬ Contract tableOps (fresh "FED-23DEC-T3.00" "9b0f6b43-5b68-4f9f-9f02-9a2d1b8ac1a1")
      (opening "99999999999999999999999999.99" ++ [.receive 1 smallPayload]) := by
  intro contract
  have promises := contract.promised _ _ _ (List.prefix_refl _)
  have rounded : level? ((run (step tableOps) (fresh "FED-23DEC-T3.00" "9b0f6b43-5b68-4f9f-9f02-9a2d1b8ac1a1")
      (opening "99999999999999999999999999.99")).outcome tableOps 1 smallPayload) = some (10 ^ 28) := by
    decide +kernel
  have summed : ((run (step tableOps) (fresh "FED-23DEC-T3.00" "9b0f6b43-5b68-4f9f-9f02-9a2d1b8ac1a1")
      (opening "99999999999999999999999999.99")).receive tableOps 1 smallPayload).accepted.map
        (fun accepted => accepted.exactQuantity .yes 500000) = some (10 ^ 28 + 1) := by
    decide +kernel
  cases outcome : (run (step tableOps) (fresh "FED-23DEC-T3.00" "9b0f6b43-5b68-4f9f-9f02-9a2d1b8ac1a1")
      (opening "99999999999999999999999999.99")).outcome tableOps 1 smallPayload with
  | published epochId view =>
    obtain ⟨accepted, recorded, continues⟩ := (promises.published epochId view outcome).2.continued
    rw [recorded] at summed
    have exactLevel := continues.exact .yes 500000
    have summedLevel : accepted.exactQuantity .yes 500000 = 10 ^ 28 + 1 := Option.some.inj summed
    rw [outcome] at rounded
    have roundedLevel : view.yesLevels.quantityAt 500000 = 10 ^ 28 := Option.some.inj rounded
    simp only [KalshiOrderbookView.levels, roundedLevel, summedLevel] at exactLevel
    omega
  | noOp epochId reason => rw [outcome] at rounded; cases rounded
  | recoveryRequested epochId commandId sid marketTicker => rw [outcome] at rounded; cases rounded
  | privateFrame epochId channel sid => rw [outcome] at rounded; cases rounded
  | terminated epochId reason => rw [outcome] at rounded; cases rounded

end Observed

end Callisto.Ws
