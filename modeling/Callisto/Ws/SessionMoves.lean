import Callisto.Ws.Session

/-! What one frame of the current epoch can do to a session. -/

namespace Callisto.Ws

open Callisto.Library

namespace KalshiV2WSLifecycle

def Open (lifecycle : KalshiV2WSLifecycle) (epochId : ℤ) : Prop :=
  lifecycle.currentEpochId = some epochId ∧ lifecycle.terminalReason = none

theorem requireEpoch_of_open {lifecycle : KalshiV2WSLifecycle} {epochId : ℤ} (isOpen : lifecycle.Open epochId) :
    lifecycle.requireEpoch epochId = none := by
  simp [requireEpoch, isOpen.1, isOpen.2]

theorem terminateEpoch_of_open {lifecycle : KalshiV2WSLifecycle} {epochId : ℤ} {reason : String}
    (isOpen : lifecycle.Open epochId) (text : strip reason ≠ "") :
    lifecycle.terminateEpoch epochId reason = (lifecycle.terminate (strip reason), .ok ()) := by
  simp [terminateEpoch, requireEpoch_of_open isOpen, text]

end KalshiV2WSLifecycle

namespace KalshiV2WSFrameSession

def closed (session : KalshiV2WSFrameSession) (reason : String) : KalshiV2WSFrameSession :=
  { session with lifecycle := session.lifecycle.terminate reason }

def ackOutcome (lifecycle : KalshiV2WSLifecycle) (epochId : ℤ) : SessionOutcome :=
  match lifecycle.orderbookView with
  | some view => .published epochId view
  | none => .noOp epochId "subscription_acknowledged"

def viewOutcome (lifecycle : KalshiV2WSLifecycle) (epochId : ℤ) (view : KalshiOrderbookView) (reason : String) :
    SessionOutcome :=
  if lifecycle.orderbookPublishable then .published epochId view else .noOp epochId reason

def noted (lifecycle : KalshiV2WSLifecycle) (commandId : ℤ) (channel : Channel) (sid : ℤ) : KalshiV2WSLifecycle :=
  { lifecycle with
    pending := lifecycle.pending.erase commandId
    acknowledged := lifecycle.acknowledged.set channel sid }

def withBook (lifecycle : KalshiV2WSLifecycle) (state : KalshiOrderbookState) (minimum : Option ℤ) :
    KalshiV2WSLifecycle :=
  { lifecycle with orderbookState := some state, minimumRecoverySequence := minimum }

/-- The watermark rises with every delta that a hidden book refuses, and starts at least at the delta
that hides it. -/
def Watermark (lifecycle : KalshiV2WSLifecycle) (state : KalshiOrderbookState) (delta : KalshiOrderbookDelta)
    (minimum : Option ℤ) : Prop :=
  (state.view = none → minimum = lifecycle.minimumRecoverySequence.map fun old => max old delta.seq) ∧
    ∀ current, state.view = some current → ∃ least, minimum = some least ∧ delta.seq ≤ least

inductive Move (ops : TextOps) (before : KalshiV2WSFrameSession) (epochId : ℤ) :
    Frame → KalshiV2WSFrameSession → SessionOutcome → Prop
  | closes (frame : Frame) (reason text : String) :
      Move ops before epochId frame (before.closed reason) (.terminated epochId text)
  | acknowledgesStream (response : KalshiWSSubscribed) (channel : Channel) (sids : Dict Channel ℤ)
      (asked : before.lifecycle.pending.get? response.commandId = some channel)
      (named : response.channel = channel.name) (stream : channel ≠ .orderbookDelta) :
      Move ops before epochId (.subscribed response)
        { before with lifecycle := noted before.lifecycle response.commandId channel response.sid, channelSids := sids }
        (ackOutcome (noted before.lifecycle response.commandId channel response.sid) epochId)
  | acknowledgesBook (response : KalshiWSSubscribed) (state : KalshiOrderbookState) (sids : Dict Channel ℤ)
      (asked : before.lifecycle.pending.get? response.commandId = some .orderbookDelta)
      (named : response.channel = Channel.orderbookDelta.name)
      (new : before.lifecycle.acknowledged.get? .orderbookDelta = none)
      (early : before.lifecycle.earlySnapshot = none)
      (fresh : state.valid = false ∧ state.recovery = none) :
      Move ops before epochId (.subscribed response)
        { before with
          lifecycle := withBook (noted before.lifecycle response.commandId .orderbookDelta response.sid) state
            before.lifecycle.minimumRecoverySequence
          channelSids := sids }
        (ackOutcome (withBook (noted before.lifecycle response.commandId .orderbookDelta response.sid) state
          before.lifecycle.minimumRecoverySequence) epochId)
  | acknowledgesEarly (response : KalshiWSSubscribed) (snapshot : KalshiOrderbookSnapshot)
      (state : KalshiOrderbookState) (sids : Dict Channel ℤ)
      (asked : before.lifecycle.pending.get? response.commandId = some .orderbookDelta)
      (named : response.channel = Channel.orderbookDelta.name)
      (new : before.lifecycle.acknowledged.get? .orderbookDelta = none)
      (early : before.lifecycle.earlySnapshot = some snapshot)
      (applied : state.view = some (KalshiOrderbookState.viewOf snapshot) ∧ state.recovery = none) :
      Move ops before epochId (.subscribed response)
        { before with
          lifecycle := { withBook (noted before.lifecycle response.commandId .orderbookDelta response.sid) state
            before.lifecycle.minimumRecoverySequence with earlySnapshot := none }
          channelSids := sids }
        (ackOutcome { withBook (noted before.lifecycle response.commandId .orderbookDelta response.sid) state
          before.lifecycle.minimumRecoverySequence with earlySnapshot := none } epochId)
  | storesEarly (snapshot : KalshiOrderbookSnapshot) (waiting : before.lifecycle.orderbookState = none)
      (result : (before.lifecycle.receiveSnapshot epochId snapshot).2 = .ok none) :
      Move ops before epochId (.snapshot snapshot)
        { before with lifecycle := { before.lifecycle with earlySnapshot := some snapshot } }
        (.noOp epochId "snapshot_not_publishable")
  | refusesSnapshot (snapshot : KalshiOrderbookSnapshot) (text : LifecycleError)
      (result : (before.lifecycle.receiveSnapshot epochId snapshot).2 = .error text) :
      Move ops before epochId (.snapshot snapshot) before (.noOp epochId "recovery_snapshot_below_watermark")
  | acceptsSnapshot (snapshot : KalshiOrderbookSnapshot) (state applied : KalshiOrderbookState)
      (view : KalshiOrderbookView) (held : before.lifecycle.orderbookState = some state)
      (reaches : ∀ minimum, before.lifecycle.minimumRecoverySequence = some minimum → minimum ≤ snapshot.seq)
      (application : state.applySnapshot snapshot = (applied, .ok view))
      (result : (before.lifecycle.receiveSnapshot epochId snapshot).2 = .ok (some view)) :
      Move ops before epochId (.snapshot snapshot)
        { before with lifecycle := withBook before.lifecycle applied none, recoveryEmitted := false }
        (viewOutcome (withBook before.lifecycle applied none) epochId view "snapshot_not_publishable")
  | continues (delta : KalshiOrderbookDelta) (state applied : KalshiOrderbookState) (view : KalshiOrderbookView)
      (minimum : Option ℤ) (held : before.lifecycle.orderbookState = some state)
      (application : state.applyDelta delta = (applied, .ok view))
      (result : (before.lifecycle.receiveDelta epochId delta).2 = .ok view) :
      Move ops before epochId (.delta delta)
        { before with lifecycle := withBook before.lifecycle applied minimum }
        (viewOutcome (withBook before.lifecycle applied minimum) epochId view "delta_not_publishable")
  | failsAgain (delta : KalshiOrderbookDelta) (state applied : KalshiOrderbookState) (text : LifecycleError)
      (minimum : Option ℤ) (held : before.lifecycle.orderbookState = some state)
      (application : state.applyDelta delta = (applied, .error text))
      (watermark : Watermark before.lifecycle state delta minimum) (emitted : before.recoveryEmitted = true)
      (result : (before.lifecycle.receiveDelta epochId delta).2 = .error text) :
      Move ops before epochId (.delta delta)
        { before with lifecycle := withBook before.lifecycle applied minimum }
        (.noOp epochId "recovery_in_progress")
  | fails (delta : KalshiOrderbookDelta) (state applied : KalshiOrderbookState) (text : LifecycleError)
      (minimum : Option ℤ) (recovery : KalshiOrderbookRecovery)
      (held : before.lifecycle.orderbookState = some state)
      (application : state.applyDelta delta = (applied, .error text))
      (watermark : Watermark before.lifecycle state delta minimum) (silent : before.recoveryEmitted = false)
      (needed : applied.recovery = some recovery)
      (result : (before.lifecycle.receiveDelta epochId delta).2 = .error text) :
      Move ops before epochId (.delta delta)
        { before with
          lifecycle := { withBook before.lifecycle applied minimum with
            commandCounter := before.lifecycle.commandCounter + 1 }
          recoveryEmitted := true }
        (.recoveryRequested epochId (before.lifecycle.commandCounter + 1) recovery.sid recovery.marketTicker)
  | surfaces (channel : Channel) (sid : ℤ) (rawSid msg : Option Json) :
      Move ops before epochId (.privateFrame channel rawSid msg) before (.privateFrame epochId channel sid)

section
variable {ops : TextOps} {session : KalshiV2WSFrameSession} {epochId : ℤ}

theorem terminate_of_open (isOpen : session.lifecycle.Open epochId) {reason : String} (text : strip reason ≠ "") :
    session.terminate epochId reason = (session.closed (strip reason), .terminated epochId reason) := by
  simp [terminate, isOpen.1, KalshiV2WSLifecycle.terminateEpoch_of_open isOpen text, closed]

/-- What an operation that raises leaves behind: an open epoch, or one that it ended. -/
def Ending (before after : KalshiV2WSLifecycle) (epochId : ℤ) : Prop :=
  (after.Open epochId ∨ ∃ reason, after = before.terminate reason) ∧
    ∀ reason, after.terminate reason = before.terminate reason

theorem ending_terminate (before : KalshiV2WSLifecycle) (epochId : ℤ) (reason : String) :
    Ending before (before.terminate reason) epochId :=
  ⟨Or.inr ⟨reason, rfl⟩, fun _ => rfl⟩

theorem raised_of_ending {after : KalshiV2WSLifecycle} (ending : Ending session.lifecycle after epochId) :
    ∃ reason text, { session with lifecycle := after }.raised epochId =
      (session.closed reason, .terminated epochId text) := by
  obtain ⟨isOpen | ⟨reason, rfl⟩, same⟩ := ending
  · refine ⟨strip "malformed_frame", "malformed_frame", ?_⟩
    have text : strip "malformed_frame" ≠ "" := by decide
    have stillOpen : ({ session with lifecycle := after } : KalshiV2WSFrameSession).lifecycle.Open epochId := isOpen
    simp only [raised, isOpen.1, Option.isNone_some, Bool.false_eq_true, if_false, terminate_of_open stillOpen text,
      closed, same]
  · exact ⟨reason, _, rfl⟩

theorem Move.of_closed {frame : Frame} {next : KalshiV2WSFrameSession × SessionOutcome}
    (ends : ∃ reason text, next = (session.closed reason, .terminated epochId text)) :
    Move ops session epochId frame next.1 next.2 := by
  obtain ⟨reason, text, rfl⟩ := ends
  exact .closes frame reason text

theorem create_fresh {sid : ℤ} {marketTicker marketId : String} {state : KalshiOrderbookState}
    (created : KalshiOrderbookState.create ops sid marketTicker marketId = .ok state) :
    state.current = none ∧ state.valid = false ∧ state.recovery = none := by
  unfold KalshiOrderbookState.create at created
  cases positive : readPositiveInteger "expected_sid" (some (.int sid)) with
  | error text => simp [positive, bind, Except.bind] at created
  | ok value =>
    cases identity : readIdentity ops [("market_ticker", .str marketTicker), ("market_id", .str marketId)] with
    | error text => simp [positive, identity, bind, Except.bind] at created
    | ok pair =>
      simp only [positive, identity, bind, Except.bind, Except.ok.injEq] at created
      subst created
      exact ⟨rfl, rfl, rfl⟩

theorem receiveSubscribed_ok {response : KalshiWSSubscribed} {after : KalshiV2WSLifecycle}
    (result : session.lifecycle.receiveSubscribed ops epochId response = (after, .ok ())) :
    ∃ sids, session.receiveSubscribed ops epochId response =
      ({ session with lifecycle := after, channelSids := sids }, ackOutcome after epochId) := by
  unfold receiveSubscribed ackOutcome
  simp only [result]
  cases after.orderbookView with
  | none => exact ⟨_, rfl⟩
  | some view => exact ⟨_, rfl⟩

theorem move_subscribed (isOpen : session.lifecycle.Open epochId) (response : KalshiWSSubscribed) :
    Move ops session epochId (.subscribed response) (session.receiveSubscribed ops epochId response).1
      (session.receiveSubscribed ops epochId response).2 := by
  have refuses : ∀ after text, session.lifecycle.receiveSubscribed ops epochId response = (after, .error text) →
      Ending session.lifecycle after epochId → Move ops session epochId (.subscribed response)
        (session.receiveSubscribed ops epochId response).1 (session.receiveSubscribed ops epochId response).2 := by
    intro after text result ending
    apply Move.of_closed
    obtain ⟨reason, outcome, ends⟩ := raised_of_ending ending
    exact ⟨reason, outcome, by simp only [receiveSubscribed, result, ends]⟩
  have invalid : ∀ text, session.lifecycle.receiveSubscribed ops epochId response =
      (session.lifecycle.terminate "invalid_subscription_acknowledgement", .error text) →
      Move ops session epochId (.subscribed response) (session.receiveSubscribed ops epochId response).1
        (session.receiveSubscribed ops epochId response).2 :=
    fun text result => refuses _ text result (ending_terminate _ _ _)
  have required := KalshiV2WSLifecycle.requireEpoch_of_open isOpen
  cases asked : session.lifecycle.pending.get? response.commandId with
  | none =>
    by_cases known : (session.lifecycle.epochCommands.get? response.commandId).isSome
    · apply invalid "subscription command was already acknowledged"
      simp only [KalshiV2WSLifecycle.receiveSubscribed, required, asked, known, if_true]
    · apply invalid "subscription acknowledgement has an unknown command id"
      simp only [KalshiV2WSLifecycle.receiveSubscribed, required, asked, known, Bool.false_eq_true, if_false]
  | some channel =>
    by_cases named : response.channel ≠ channel.name
    · apply invalid "subscription acknowledgement channel does not match its command"
      simp only [KalshiV2WSLifecycle.receiveSubscribed, required, asked, if_pos named]
    by_cases again : (session.lifecycle.acknowledged.get? channel).isSome
    · apply invalid "subscription channel was already acknowledged"
      simp only [KalshiV2WSLifecycle.receiveSubscribed, required, asked, if_neg named, if_pos again]
    by_cases stream : channel ≠ .orderbookDelta
    · have result : session.lifecycle.receiveSubscribed ops epochId response =
          (noted session.lifecycle response.commandId channel response.sid, .ok ()) := by
        simp only [KalshiV2WSLifecycle.receiveSubscribed, required, asked, if_neg named, if_neg again, if_pos stream]
        rfl
      obtain ⟨sids, outcome⟩ := receiveSubscribed_ok result
      rw [outcome]
      exact .acknowledgesStream response channel sids asked (not_not.1 named) stream
    obtain rfl : channel = .orderbookDelta := not_not.1 stream
    have new : session.lifecycle.acknowledged.get? .orderbookDelta = none := Option.not_isSome_iff_eq_none.1 again
    cases created : KalshiOrderbookState.create ops response.sid session.lifecycle.marketTicker
        session.lifecycle.marketId with
    | error text =>
      refine refuses (noted session.lifecycle response.commandId .orderbookDelta response.sid) text ?_
        ⟨Or.inl isOpen, fun _ => rfl⟩
      simp only [KalshiV2WSLifecycle.receiveSubscribed, required, asked, if_neg named, if_neg again, if_neg stream,
        created]
      rfl
    | ok state =>
      obtain ⟨empty, hidden, quiet⟩ := create_fresh created
      cases early : session.lifecycle.earlySnapshot with
      | none =>
        have result : session.lifecycle.receiveSubscribed ops epochId response =
            (withBook (noted session.lifecycle response.commandId .orderbookDelta response.sid) state
              session.lifecycle.minimumRecoverySequence, .ok ()) := by
          simp only [KalshiV2WSLifecycle.receiveSubscribed, required, asked, if_neg named, if_neg again,
            if_neg stream, created, early, withBook, noted]
        obtain ⟨sids, outcome⟩ := receiveSubscribed_ok result
        rw [outcome]
        exact .acknowledgesBook response state sids asked (not_not.1 named) new early ⟨hidden, quiet⟩
      | some snapshot =>
        rcases state.applySnapshot_cases snapshot with ⟨-, -, accepted⟩ | ⟨-, visible, -⟩ | ⟨text, refused⟩
        · have result : session.lifecycle.receiveSubscribed ops epochId response =
              ({ withBook (noted session.lifecycle response.commandId .orderbookDelta response.sid)
                { state with
                  current := some (KalshiOrderbookState.viewOf snapshot)
                  recovery := none
                  valid := true } session.lifecycle.minimumRecoverySequence with earlySnapshot := none },
                .ok ()) := by
            simp only [KalshiV2WSLifecycle.receiveSubscribed, required, asked, if_neg named, if_neg again,
              if_neg stream, created, early, accepted]
            rfl
          obtain ⟨sids, outcome⟩ := receiveSubscribed_ok result
          rw [outcome]
          exact .acknowledgesEarly response snapshot _ sids asked (not_not.1 named) new early ⟨rfl, rfl⟩
        · rw [KalshiOrderbookState.view_eq_some_iff, hidden] at visible
          cases visible.1
        · refine refuses _ text ?_ (ending_terminate _ _ "invalid_orderbook_snapshot")
          simp only [KalshiV2WSLifecycle.receiveSubscribed, required, asked, if_neg named, if_neg again,
            if_neg stream, created, early, refused]
          rfl

theorem move_error (isOpen : session.lifecycle.Open epochId) (response : KalshiWSErrorResponse) :
    Move ops session epochId (.error response) (session.receiveError epochId response).1
      (session.receiveError epochId response).2 := by
  apply Move.of_closed
  have required := KalshiV2WSLifecycle.requireEpoch_of_open isOpen
  by_cases unknown : (session.lifecycle.epochCommands.get? response.commandId).isNone
  · obtain ⟨reason, text, ends⟩ := raised_of_ending (ending_terminate session.lifecycle epochId "invalid_error_correlation")
    exact ⟨reason, text, by simp only [receiveError, KalshiV2WSLifecycle.receiveError, required, if_pos unknown, ends]⟩
  · refine ⟨s!"kalshi_ws_error:{response.code}", s!"kalshi_ws_error:{response.code}", ?_⟩
    simp only [receiveError, KalshiV2WSLifecycle.receiveError, required, if_neg unknown]
    rfl

theorem move_private (isOpen : session.lifecycle.Open epochId) (channel : Channel) (sid msg : Option Json) :
    Move ops session epochId (.privateFrame channel sid msg) (session.receivePrivate epochId channel sid msg).1
      (session.receivePrivate epochId channel sid msg).2 := by
  have ends : ∃ reason text, session.terminate epochId "invalid_private_frame_envelope" =
      (session.closed reason, .terminated epochId text) :=
    ⟨_, _, terminate_of_open isOpen (by decide)⟩
  unfold receivePrivate
  split
  · split_ifs
    · exact .surfaces channel _ _ _
    · exact Move.of_closed ends
  · exact Move.of_closed ends

theorem move_snapshot (isOpen : session.lifecycle.Open epochId) (snapshot : KalshiOrderbookSnapshot) :
    Move ops session epochId (.snapshot snapshot) (session.receiveSnapshot epochId snapshot).1
      (session.receiveSnapshot epochId snapshot).2 := by
  have ends : ∀ reason text, session.lifecycle.receiveSnapshot epochId snapshot =
      (session.lifecycle.terminate reason, .error text) →
      Move ops session epochId (.snapshot snapshot) (session.receiveSnapshot epochId snapshot).1
        (session.receiveSnapshot epochId snapshot).2 := by
    intro reason text result
    apply Move.of_closed
    exact ⟨reason, reason, by simp only [receiveSnapshot, result]; rfl⟩
  have refuses : ∀ text, session.lifecycle.receiveSnapshot epochId snapshot = (session.lifecycle, .error text) →
      Move ops session epochId (.snapshot snapshot) (session.receiveSnapshot epochId snapshot).1
        (session.receiveSnapshot epochId snapshot).2 := by
    intro text result
    have outcome : session.receiveSnapshot epochId snapshot =
        (session, .noOp epochId "recovery_snapshot_below_watermark") := by
      simp only [receiveSnapshot, result, isOpen.1]
      rfl
    rw [outcome]
    exact .refusesSnapshot snapshot text (by rw [result])
  have required := KalshiV2WSLifecycle.requireEpoch_of_open isOpen
  by_cases foreign : snapshot.marketTicker ≠ session.lifecycle.marketTicker ∨
      snapshot.marketId ≠ session.lifecycle.marketId
  · apply ends "invalid_orderbook_identity" "snapshot does not match the active subscription"
    simp only [KalshiV2WSLifecycle.receiveSnapshot, required, if_pos foreign]
  cases held : session.lifecycle.orderbookState with
  | none =>
    by_cases conflicting : session.lifecycle.earlySnapshot.any fun early => early ≠ snapshot
    · apply ends "conflicting_early_orderbook_snapshot"
        "conflicting orderbook snapshots arrived before acknowledgement"
      simp only [KalshiV2WSLifecycle.receiveSnapshot, required, if_neg foreign, held, if_pos conflicting]
    · have result : session.lifecycle.receiveSnapshot epochId snapshot =
          ({ session.lifecycle with earlySnapshot := some snapshot }, .ok none) := by
        simp only [KalshiV2WSLifecycle.receiveSnapshot, required, if_neg foreign, held, if_neg conflicting]
      have outcome : session.receiveSnapshot epochId snapshot =
          ({ session with lifecycle := { session.lifecycle with earlySnapshot := some snapshot } },
            .noOp epochId "snapshot_not_publishable") := by
        simp only [receiveSnapshot, result]
      rw [outcome]
      exact .storesEarly snapshot held (by rw [result])
  | some state =>
    cases bound : session.lifecycle.acknowledged.get? .orderbookDelta with
    | none =>
      apply refuses "orderbook_delta"
      simp only [KalshiV2WSLifecycle.receiveSnapshot, required, if_neg foreign, held, bound]
    | some expectedSid =>
      by_cases other : snapshot.sid ≠ expectedSid
      · apply ends "invalid_orderbook_identity" "snapshot does not match the active subscription"
        simp only [KalshiV2WSLifecycle.receiveSnapshot, required, if_neg foreign, held, bound, if_pos other]
      by_cases below : session.lifecycle.minimumRecoverySequence.any fun minimum => decide (snapshot.seq < minimum)
      · apply refuses "recovery snapshot does not advance through the observed gap"
        simp only [KalshiV2WSLifecycle.receiveSnapshot, required, if_neg foreign, held, bound, if_neg other,
          if_pos below]
      cases application : state.applySnapshot snapshot with
      | mk applied returned =>
        cases returned with
        | error text =>
          by_cases valid : state.valid
          · apply ends "invalid_orderbook_snapshot" text
            simp only [KalshiV2WSLifecycle.receiveSnapshot, required, if_neg foreign, held, bound, if_neg other,
              if_neg below, application, if_pos valid]
          · apply refuses text
            simp only [KalshiV2WSLifecycle.receiveSnapshot, required, if_neg foreign, held, bound, if_neg other,
              if_neg below, application, if_neg valid]
        | ok view =>
          have result : session.lifecycle.receiveSnapshot epochId snapshot =
              (withBook session.lifecycle applied none, .ok (some view)) := by
            simp only [KalshiV2WSLifecycle.receiveSnapshot, required, if_neg foreign, held, bound, if_neg other,
              if_neg below, application]
            rfl
          have outcome : session.receiveSnapshot epochId snapshot =
              ({ session with lifecycle := withBook session.lifecycle applied none, recoveryEmitted := false },
                viewOutcome (withBook session.lifecycle applied none) epochId view "snapshot_not_publishable") := by
            simp only [receiveSnapshot, result, viewOutcome]
          have reaches : ∀ minimum, session.lifecycle.minimumRecoverySequence = some minimum →
              minimum ≤ snapshot.seq := by
            intro minimum known
            simpa [known] using below
          rw [outcome]
          exact .acceptsSnapshot snapshot state applied view held reaches application (by rw [result])

theorem receiveDelta_cases (isOpen : session.lifecycle.Open epochId) (delta : KalshiOrderbookDelta) :
    (∃ after text, session.lifecycle.receiveDelta epochId delta = (after, .error text) ∧
      (after = session.lifecycle ∧ session.lifecycle.orderbookState = none ∨
        after = session.lifecycle ∧ session.lifecycle.acknowledged.get? .orderbookDelta = none ∨
        ∃ reason, after = session.lifecycle.terminate reason)) ∨
    ∃ state minimum, session.lifecycle.orderbookState = some state ∧
      session.lifecycle.receiveDelta epochId delta =
        (withBook session.lifecycle (state.applyDelta delta).1 minimum, (state.applyDelta delta).2) ∧
      (∀ text, (state.applyDelta delta).2 = .error text → Watermark session.lifecycle state delta minimum) := by
  have required := KalshiV2WSLifecycle.requireEpoch_of_open isOpen
  cases held : session.lifecycle.orderbookState with
  | none =>
    refine Or.inl ⟨session.lifecycle, "orderbook subscription acknowledgement and snapshot are required", ?_,
      Or.inl ⟨rfl, rfl⟩⟩
    simp only [KalshiV2WSLifecycle.receiveDelta, required, held]
  | some state =>
    cases bound : session.lifecycle.acknowledged.get? .orderbookDelta with
    | none =>
      refine Or.inl ⟨session.lifecycle, "orderbook_delta", ?_, Or.inr (Or.inl ⟨rfl, rfl⟩)⟩
      simp only [KalshiV2WSLifecycle.receiveDelta, required, held, bound]
    | some expectedSid =>
      by_cases foreign : delta.sid ≠ expectedSid ∨ delta.marketTicker ≠ session.lifecycle.marketTicker ∨
          delta.marketId ≠ session.lifecycle.marketId
      · refine Or.inl ⟨session.lifecycle.terminate "invalid_orderbook_identity",
          "delta does not match the active subscription", ?_, Or.inr (Or.inr ⟨_, rfl⟩)⟩
        simp only [KalshiV2WSLifecycle.receiveDelta, required, held, bound, if_pos foreign]
      cases application : state.applyDelta delta with
      | mk applied returned =>
        cases returned with
        | ok view =>
          refine Or.inr ⟨state, session.lifecycle.observedMinimum state delta, rfl, ?_, ?_⟩
          · simp only [KalshiV2WSLifecycle.receiveDelta, required, held, bound, if_neg foreign, application]
            rfl
          · intro text wrong
            rw [application] at wrong
            cases wrong
        | error text =>
          refine Or.inr ⟨state, session.lifecycle.failedMinimum state delta, rfl, ?_, ?_⟩
          · simp only [KalshiV2WSLifecycle.receiveDelta, required, held, bound, if_neg foreign, application]
            rfl
          · intro other _
            constructor
            · intro hidden
              simp only [KalshiV2WSLifecycle.failedMinimum, KalshiV2WSLifecycle.observedMinimum, hidden]
            · intro current visible
              simp only [KalshiV2WSLifecycle.failedMinimum, visible]
              exact ⟨_, rfl, le_max_of_le_right (le_max_right _ _)⟩

/-- The session asked for a recovery only of a book it has, and has a book only once it is acknowledged. -/
def Rooted (session : KalshiV2WSFrameSession) : Prop :=
  (session.recoveryEmitted = true → session.lifecycle.orderbookState.isSome) ∧
    (session.lifecycle.orderbookState.isSome → (session.lifecycle.acknowledged.get? .orderbookDelta).isSome)

theorem receiveDelta_failed {delta : KalshiOrderbookDelta} {after : KalshiV2WSLifecycle} {text : LifecycleError}
    (result : session.lifecycle.receiveDelta epochId delta = (after, .error text)) (isOpen : after.Open epochId) :
    session.receiveDelta epochId delta =
      if session.recoveryEmitted then ({ session with lifecycle := after }, .noOp epochId "recovery_in_progress")
      else
        match after.recoveryCommand with
        | (_, .error _) => { session with lifecycle := after }.raised epochId
        | (counted, .ok (commandId, recovery)) =>
          ({ session with lifecycle := counted, recoveryEmitted := true },
            .recoveryRequested epochId commandId recovery.sid recovery.marketTicker) := by
  simp only [receiveDelta, result, isOpen.1]
  rfl

theorem closes_without_book (isOpen : session.lifecycle.Open epochId) (rooted : session.Rooted)
    {delta : KalshiOrderbookDelta} {text : LifecycleError}
    (result : session.lifecycle.receiveDelta epochId delta = (session.lifecycle, .error text))
    (absent : session.lifecycle.orderbookState = none) :
    ∃ reason outcome, session.receiveDelta epochId delta = (session.closed reason, .terminated epochId outcome) := by
  have silent : ¬ session.recoveryEmitted = true := by
    intro emitted
    have present := rooted.1 emitted
    rw [absent] at present
    cases present
  have unavailable : session.lifecycle.recoveryCommand =
      (session.lifecycle, .error "no active orderbook recovery is available") := by
    simp only [KalshiV2WSLifecycle.recoveryCommand, isOpen.1, absent]
  obtain ⟨reason, outcome, ends⟩ := raised_of_ending
    (⟨Or.inl isOpen, fun _ => rfl⟩ : Ending session.lifecycle session.lifecycle epochId)
  refine ⟨reason, outcome, ?_⟩
  rw [receiveDelta_failed result isOpen, if_neg silent, unavailable]
  exact ends

theorem move_delta (isOpen : session.lifecycle.Open epochId) (rooted : session.Rooted)
    (delta : KalshiOrderbookDelta) :
    Move ops session epochId (.delta delta) (session.receiveDelta epochId delta).1
      (session.receiveDelta epochId delta).2 := by
  rcases receiveDelta_cases isOpen delta with
    ⟨after, text, result, ⟨rfl, absent⟩ | ⟨rfl, unbound⟩ | ⟨reason, rfl⟩⟩ | ⟨state, minimum, held, result, watermark⟩
  · exact Move.of_closed (closes_without_book isOpen rooted result absent)
  · have absent : session.lifecycle.orderbookState = none := by
      by_contra held
      have known := rooted.2 (Option.isSome_iff_ne_none.2 held)
      rw [unbound] at known
      cases known
    exact Move.of_closed (closes_without_book isOpen rooted result absent)
  · apply Move.of_closed
    exact ⟨reason, reason, by simp only [receiveDelta, result]; rfl⟩
  · cases application : state.applyDelta delta with
    | mk applied returned =>
      simp only [application] at result watermark
      cases returned with
      | ok view =>
        have outcome : session.receiveDelta epochId delta =
            ({ session with lifecycle := withBook session.lifecycle applied minimum },
              viewOutcome (withBook session.lifecycle applied minimum) epochId view "delta_not_publishable") := by
          simp only [receiveDelta, result, viewOutcome]
        rw [outcome]
        exact .continues delta state applied view minimum held application (by rw [result])
      | error text =>
        have stillOpen : (withBook session.lifecycle applied minimum).Open epochId := isOpen
        have failed := receiveDelta_failed result stillOpen
        by_cases emitted : session.recoveryEmitted = true
        · rw [failed, if_pos emitted]
          exact .failsAgain delta state applied text minimum held application (watermark text rfl) emitted
            (by rw [result])
        · rw [if_neg emitted] at failed
          cases needed : applied.recovery with
          | none =>
            have unavailable : (withBook session.lifecycle applied minimum).recoveryCommand =
                (withBook session.lifecycle applied minimum, .error "orderbook recovery is not required") := by
              simp only [KalshiV2WSLifecycle.recoveryCommand, stillOpen.1]
              simp only [withBook, needed]
            have leaves : Ending session.lifecycle (withBook session.lifecycle applied minimum) epochId :=
              ⟨Or.inl stillOpen, fun _ => rfl⟩
            apply Move.of_closed
            obtain ⟨reason, ending, ends⟩ := raised_of_ending leaves
            refine ⟨reason, ending, ?_⟩
            rw [failed, unavailable]
            exact ends
          | some recovery =>
            have available : (withBook session.lifecycle applied minimum).recoveryCommand =
                ({ withBook session.lifecycle applied minimum with
                  commandCounter := session.lifecycle.commandCounter + 1 },
                  .ok (session.lifecycle.commandCounter + 1, recovery)) := by
              simp only [KalshiV2WSLifecycle.recoveryCommand, stillOpen.1]
              simp only [withBook, needed]
            rw [failed, available]
            exact .fails delta state applied text minimum recovery held application (watermark text rfl)
              (Bool.eq_false_iff.2 emitted) needed (by rw [result])

theorem move_frame (isOpen : session.lifecycle.Open epochId) (rooted : session.Rooted) (frame : Frame) :
    Move ops session epochId frame (session.receiveFrame ops epochId frame).1
      (session.receiveFrame ops epochId frame).2 := by
  cases frame with
  | malformed => exact Move.of_closed ⟨_, _, terminate_of_open isOpen (by decide)⟩
  | unknown => exact Move.of_closed ⟨_, _, terminate_of_open isOpen (by decide)⟩
  | subscribed response => exact move_subscribed isOpen response
  | error response => exact move_error isOpen response
  | snapshot snapshot => exact move_snapshot isOpen snapshot
  | delta delta => exact move_delta isOpen rooted delta
  | privateFrame channel sid msg => exact move_private isOpen channel sid msg

end

end KalshiV2WSFrameSession

end Callisto.Ws
