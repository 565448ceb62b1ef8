import Callisto.Ws.Lifecycle

/-! Decoded frames routed through one lifecycle epoch. -/

namespace Callisto.Ws

open Callisto.Library

inductive SessionOutcome where
  | noOp (epochId : ℤ) (reason : String)
  | published (epochId : ℤ) (view : KalshiOrderbookView)
  | recoveryRequested (epochId commandId sid : ℤ) (marketTicker : String)
  | privateFrame (epochId : ℤ) (channel : Channel) (sid : ℤ)
  | terminated (epochId : ℤ) (reason : String)
  deriving DecidableEq

inductive Frame where
  | malformed
  | unknown
  | subscribed (response : KalshiWSSubscribed)
  | error (response : KalshiWSErrorResponse)
  | snapshot (snapshot : KalshiOrderbookSnapshot)
  | delta (delta : KalshiOrderbookDelta)
  | privateFrame (channel : Channel) (sid msg : Option Json)

def Frame.ofReader {α : Type} (frame : α → Frame) : Reader α → Frame
  | .ok value => frame value
  | .error _ => .malformed

def decodeFrame (ops : TextOps) : Json → Frame
  | .obj payload =>
    match Dict.find "type" payload with
    | some (.str "subscribed") => Frame.ofReader .subscribed (KalshiWSSubscribed.fromPayload payload)
    | some (.str "error") => Frame.ofReader .error (KalshiWSErrorResponse.fromPayload payload)
    | some (.str "orderbook_snapshot") => Frame.ofReader .snapshot (KalshiOrderbookSnapshot.fromPayload ops payload)
    | some (.str "orderbook_delta") => Frame.ofReader .delta (KalshiOrderbookDelta.fromPayload ops payload)
    | some (.str "user_order") => .privateFrame .userOrders (Dict.find "sid" payload) (Dict.find "msg" payload)
    | some (.str "fill") => .privateFrame .fill (Dict.find "sid" payload) (Dict.find "msg" payload)
    | some (.str _) => .unknown
    | _ => .malformed
  | _ => .malformed

structure KalshiV2WSFrameSession where
  lifecycle : KalshiV2WSLifecycle
  epochId : Option ℤ := none
  channelSids : Dict Channel ℤ := Dict.empty
  recoveryEmitted : Bool := false

namespace KalshiV2WSFrameSession

def begin (session : KalshiV2WSFrameSession) (headers : Except LifecycleError (List (String × String)))
    (timestampMs : ℤ) : KalshiV2WSFrameSession × Except LifecycleError KalshiWSConnectionInstructions :=
  match session.lifecycle.beginConnection headers timestampMs with
  | (lifecycle, .error text) => ({ session with lifecycle := lifecycle }, .error text)
  | (lifecycle, .ok instructions) => (⟨lifecycle, some instructions.epochId, Dict.empty, false⟩, .ok instructions)

def terminate (session : KalshiV2WSFrameSession) (epochId : ℤ) (reason : String) :
    KalshiV2WSFrameSession × SessionOutcome :=
  (if session.lifecycle.currentEpochId = some epochId then
      { session with lifecycle := (session.lifecycle.terminateEpoch epochId reason).1 }
    else session, .terminated epochId reason)

/-- The outcome of an error that a frame raised and no handler of its own caught. -/
def raised (session : KalshiV2WSFrameSession) (epochId : ℤ) : KalshiV2WSFrameSession × SessionOutcome :=
  if session.lifecycle.currentEpochId.isNone then
    (session, .terminated epochId (session.lifecycle.terminalReason.getD "invalid_frame"))
  else session.terminate epochId "malformed_frame"

def receiveSubscribed (ops : TextOps) (session : KalshiV2WSFrameSession) (epochId : ℤ)
    (response : KalshiWSSubscribed) : KalshiV2WSFrameSession × SessionOutcome :=
  match session.lifecycle.receiveSubscribed ops epochId response with
  | (lifecycle, .error _) => { session with lifecycle := lifecycle }.raised epochId
  | (lifecycle, .ok ()) =>
    let acknowledged := { session with
      lifecycle := lifecycle
      channelSids := (channels.filter (fun channel => channel.name = response.channel)).foldl
        (fun sids channel => sids.set channel response.sid) session.channelSids }
    match lifecycle.orderbookView with
    | some view => (acknowledged, .published epochId view)
    | none => (acknowledged, .noOp epochId "subscription_acknowledged")

def receiveError (session : KalshiV2WSFrameSession) (epochId : ℤ) (response : KalshiWSErrorResponse) :
    KalshiV2WSFrameSession × SessionOutcome :=
  match session.lifecycle.receiveError epochId response with
  | (lifecycle, .error _) => { session with lifecycle := lifecycle }.raised epochId
  | (lifecycle, .ok ()) =>
    ({ session with lifecycle := lifecycle },
      .terminated epochId (lifecycle.terminalReason.getD "kalshi_ws_error"))

def receiveSnapshot (session : KalshiV2WSFrameSession) (epochId : ℤ) (snapshot : KalshiOrderbookSnapshot) :
    KalshiV2WSFrameSession × SessionOutcome :=
  match session.lifecycle.receiveSnapshot epochId snapshot with
  | (lifecycle, .error _) =>
    ({ session with lifecycle := lifecycle },
      if lifecycle.currentEpochId.isNone then
        .terminated epochId (lifecycle.terminalReason.getD "invalid_orderbook_snapshot")
      else .noOp epochId "recovery_snapshot_below_watermark")
  | (lifecycle, .ok none) =>
    ({ session with lifecycle := lifecycle }, .noOp epochId "snapshot_not_publishable")
  | (lifecycle, .ok (some view)) =>
    ({ session with lifecycle := lifecycle, recoveryEmitted := false },
      if lifecycle.orderbookPublishable then .published epochId view
      else .noOp epochId "snapshot_not_publishable")

/-- A delta that fails leads to one recovery request for each loss of continuity. -/
def receiveDelta (session : KalshiV2WSFrameSession) (epochId : ℤ) (delta : KalshiOrderbookDelta) :
    KalshiV2WSFrameSession × SessionOutcome :=
  match session.lifecycle.receiveDelta epochId delta with
  | (lifecycle, .ok view) =>
    ({ session with lifecycle := lifecycle },
      if lifecycle.orderbookPublishable then .published epochId view else .noOp epochId "delta_not_publishable")
  | (lifecycle, .error _) =>
    let failed := { session with lifecycle := lifecycle }
    if lifecycle.currentEpochId.isNone then
      (failed, .terminated epochId (lifecycle.terminalReason.getD "invalid_orderbook_delta"))
    else if session.recoveryEmitted then (failed, .noOp epochId "recovery_in_progress")
    else
      match lifecycle.recoveryCommand with
      | (_, .error _) => failed.raised epochId
      | (counted, .ok (commandId, recovery)) =>
        ({ failed with lifecycle := counted, recoveryEmitted := true },
          .recoveryRequested epochId commandId recovery.sid recovery.marketTicker)

def receivePrivate (session : KalshiV2WSFrameSession) (epochId : ℤ) (channel : Channel)
    (sid msg : Option Json) : KalshiV2WSFrameSession × SessionOutcome :=
  match sid, msg with
  | some (.int value), some (.obj _) =>
    if 0 < value ∧ session.channelSids.get? channel = some value then
      (session, .privateFrame epochId channel value)
    else session.terminate epochId "invalid_private_frame_envelope"
  | _, _ => session.terminate epochId "invalid_private_frame_envelope"

def receiveFrame (ops : TextOps) (session : KalshiV2WSFrameSession) (epochId : ℤ) :
    Frame → KalshiV2WSFrameSession × SessionOutcome
  | .malformed => session.terminate epochId "malformed_frame"
  | .unknown => session.terminate epochId "unknown_frame_type"
  | .subscribed response => session.receiveSubscribed ops epochId response
  | .error response => session.receiveError epochId response
  | .snapshot snapshot => session.receiveSnapshot epochId snapshot
  | .delta delta => session.receiveDelta epochId delta
  | .privateFrame channel sid msg => session.receivePrivate epochId channel sid msg

/-- The epoch id of a call is that of the session and of the lifecycle. -/
def IsCurrent (session : KalshiV2WSFrameSession) (epochId : ℤ) : Prop :=
  session.epochId = some epochId ∧ session.lifecycle.currentEpochId = some epochId

instance (session : KalshiV2WSFrameSession) (epochId : ℤ) : Decidable (session.IsCurrent epochId) := by
  unfold IsCurrent
  infer_instance

def receive (ops : TextOps) (session : KalshiV2WSFrameSession) (epochId : ℤ) (payload : Json) :
    KalshiV2WSFrameSession × SessionOutcome :=
  if session.IsCurrent epochId then session.receiveFrame ops epochId (decodeFrame ops payload)
  else (session, .noOp epochId "stale_epoch")

end KalshiV2WSFrameSession

end Callisto.Ws
