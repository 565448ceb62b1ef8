import Callisto.Ws.Payload

/-! The lifecycle of a connection to one orderbook: an epoch starts with three subscriptions, and any
frame that cannot belong to it ends it. -/

namespace Callisto.Ws

open Callisto.Library

inductive Channel where
  | orderbookDelta
  | userOrders
  | fill
  deriving DecidableEq, Repr

def Channel.name : Channel → String
  | .orderbookDelta => "orderbook_delta"
  | .userOrders => "user_orders"
  | .fill => "fill"

def channels : List Channel := [.orderbookDelta, .userOrders, .fill]

structure KalshiWSSubscribed where
  commandId : ℤ
  channel : String
  sid : ℤ

def KalshiWSSubscribed.fromPayload (payload : Fields) : Reader KalshiWSSubscribed :=
  match Dict.find "type" payload with
  | some (.str "subscribed") => do
    let message ← readMapping "subscription msg" (Dict.find "msg" payload)
    let commandId ← readPositiveInteger "subscription command id" (Dict.find "id" payload)
    let channel ← readText message "channel"
    let sid ← readPositiveInteger "subscription sid" (Dict.find "sid" message)
    .ok ⟨commandId, channel, sid⟩
  | _ => .error "subscription response type must be 'subscribed'"

structure KalshiWSErrorResponse where
  commandId : ℤ
  code : ℤ
  message : String

def KalshiWSErrorResponse.fromPayload (payload : Fields) : Reader KalshiWSErrorResponse :=
  match Dict.find "type" payload with
  | some (.str "error") => do
    let message ← readMapping "error msg" (Dict.find "msg" payload)
    let code ← readPositiveInteger "error code" (Dict.find "code" message)
    if 28 < code then .error "error code must be between 1 and 28"
    else
      let commandId ← readPositiveInteger "error command id" (Dict.find "id" payload)
      let text ← readText message "msg"
      .ok ⟨commandId, code, text⟩
  | _ => .error "error response type must be 'error'"

structure KalshiWSSubscriptionCommand where
  commandId : ℤ
  channel : Channel
  marketTicker : Option String
  deriving DecidableEq

structure KalshiWSConnectionInstructions where
  epochId : ℤ
  timestampMs : ℤ
  headers : List (String × String)
  subscriptions : List KalshiWSSubscriptionCommand
  deriving DecidableEq

structure KalshiV2WSLifecycle where
  marketTicker : String
  marketId : String
  epochCounter : ℤ := 0
  commandCounter : ℤ := 0
  lastTimestampMs : ℤ := 0
  currentEpochId : Option ℤ := none
  epochCommands : Dict ℤ Channel := Dict.empty
  pending : Dict ℤ Channel := Dict.empty
  acknowledged : Dict Channel ℤ := Dict.empty
  earlySnapshot : Option KalshiOrderbookSnapshot := none
  orderbookState : Option KalshiOrderbookState := none
  minimumRecoverySequence : Option ℤ := none
  terminalReason : Option String := none

/-- The text of a `KalshiWSLifecycleError`, or of a protocol error raised on the way. -/
abbrev LifecycleError := String

namespace KalshiV2WSLifecycle

def create (ops : TextOps) (marketTicker marketId : String) : Except LifecycleError KalshiV2WSLifecycle := do
  let _ ← KalshiOrderbookState.create ops 1 marketTicker marketId
  .ok { marketTicker := marketTicker, marketId := marketId }

def orderbookPublishable (lifecycle : KalshiV2WSLifecycle) : Bool :=
  lifecycle.currentEpochId.isSome && lifecycle.terminalReason.isNone &&
    decide (lifecycle.acknowledged.entries.length = channels.length) &&
    (lifecycle.orderbookState.any fun state => state.valid)

def orderbookView (lifecycle : KalshiV2WSLifecycle) : Option KalshiOrderbookView :=
  if lifecycle.orderbookPublishable then lifecycle.orderbookState.bind KalshiOrderbookState.view else none

def terminate (lifecycle : KalshiV2WSLifecycle) (reason : String) : KalshiV2WSLifecycle :=
  { lifecycle with
    terminalReason := some reason
    currentEpochId := none
    epochCommands := Dict.empty
    pending := Dict.empty
    acknowledged := Dict.empty
    earlySnapshot := none
    orderbookState := none
    minimumRecoverySequence := none }

/-- The subscription commands of an epoch, numbered after `counter`. -/
def subscriptionCommands (marketTicker : String) (counter : ℤ) : List KalshiWSSubscriptionCommand :=
  [⟨counter + 1, .orderbookDelta, some marketTicker⟩, ⟨counter + 2, .userOrders, none⟩, ⟨counter + 3, .fill, none⟩]

def commandChannels (commands : List KalshiWSSubscriptionCommand) : Dict ℤ Channel :=
  commands.foldl (fun dict command => dict.set command.commandId command.channel) Dict.empty

/-- A new epoch. The signer runs last, so its failure leaves the new epoch behind. -/
def beginConnection (lifecycle : KalshiV2WSLifecycle) (headers : Except LifecycleError (List (String × String)))
    (timestampMs : ℤ) : KalshiV2WSLifecycle × Except LifecycleError KalshiWSConnectionInstructions :=
  if timestampMs ≤ 0 then (lifecycle, .error "timestamp_ms must be a positive integer")
  else if timestampMs ≤ lifecycle.lastTimestampMs then
    (lifecycle, .error "connection timestamp_ms must strictly increase")
  else
    let epochId := lifecycle.epochCounter + 1
    let commands := subscriptionCommands lifecycle.marketTicker lifecycle.commandCounter
    let started : KalshiV2WSLifecycle :=
      { marketTicker := lifecycle.marketTicker
        marketId := lifecycle.marketId
        epochCounter := epochId
        commandCounter := lifecycle.commandCounter + 3
        lastTimestampMs := timestampMs
        currentEpochId := some epochId
        epochCommands := commandChannels commands
        pending := commandChannels commands }
    (started, headers.map fun signed => ⟨epochId, timestampMs, signed, commands⟩)

def requireEpoch (lifecycle : KalshiV2WSLifecycle) (epochId : ℤ) : Option LifecycleError :=
  match lifecycle.currentEpochId with
  | none => some "no active connection epoch"
  | some current =>
    if epochId ≠ current then some "frame does not belong to the current connection epoch"
    else if lifecycle.terminalReason.isSome then some "current connection epoch is terminal"
    else none

def receiveSubscribed (ops : TextOps) (lifecycle : KalshiV2WSLifecycle) (epochId : ℤ)
    (response : KalshiWSSubscribed) : KalshiV2WSLifecycle × Except LifecycleError Unit :=
  match lifecycle.requireEpoch epochId with
  | some text => (lifecycle, .error text)
  | none =>
    let refused (text : String) := (lifecycle.terminate "invalid_subscription_acknowledgement", Except.error text)
    match lifecycle.pending.get? response.commandId with
    | none =>
      if (lifecycle.epochCommands.get? response.commandId).isSome then
        refused "subscription command was already acknowledged"
      else refused "subscription acknowledgement has an unknown command id"
    | some expected =>
      if response.channel ≠ expected.name then
        refused "subscription acknowledgement channel does not match its command"
      else if (lifecycle.acknowledged.get? expected).isSome then
        refused "subscription channel was already acknowledged"
      else
        let noted := { lifecycle with
          pending := lifecycle.pending.erase response.commandId
          acknowledged := lifecycle.acknowledged.set expected response.sid }
        if expected ≠ .orderbookDelta then (noted, .ok ())
        else
          match KalshiOrderbookState.create ops response.sid lifecycle.marketTicker lifecycle.marketId with
          | .error text => (noted, .error text)
          | .ok state =>
            match lifecycle.earlySnapshot with
            | none => ({ noted with orderbookState := some state }, .ok ())
            | some snapshot =>
              match state.applySnapshot snapshot with
              | (_, .error text) => (noted.terminate "invalid_orderbook_snapshot", .error text)
              | (applied, .ok _) => ({ noted with orderbookState := some applied, earlySnapshot := none }, .ok ())

def receiveSnapshot (lifecycle : KalshiV2WSLifecycle) (epochId : ℤ) (snapshot : KalshiOrderbookSnapshot) :
    KalshiV2WSLifecycle × Except LifecycleError (Option KalshiOrderbookView) :=
  match lifecycle.requireEpoch epochId with
  | some text => (lifecycle, .error text)
  | none =>
    if snapshot.marketTicker ≠ lifecycle.marketTicker ∨ snapshot.marketId ≠ lifecycle.marketId then
      (lifecycle.terminate "invalid_orderbook_identity", .error "snapshot does not match the active subscription")
    else
      match lifecycle.orderbookState with
      | none =>
        if lifecycle.earlySnapshot.any (fun early => early ≠ snapshot) then
          (lifecycle.terminate "conflicting_early_orderbook_snapshot",
            .error "conflicting orderbook snapshots arrived before acknowledgement")
        else ({ lifecycle with earlySnapshot := some snapshot }, .ok none)
      | some state =>
        match lifecycle.acknowledged.get? .orderbookDelta with
        | none => (lifecycle, .error "orderbook_delta")
        | some expectedSid =>
          if snapshot.sid ≠ expectedSid then
            (lifecycle.terminate "invalid_orderbook_identity",
              .error "snapshot does not match the active subscription")
          else if lifecycle.minimumRecoverySequence.any (fun minimum => decide (snapshot.seq < minimum)) then
            (lifecycle, .error "recovery snapshot does not advance through the observed gap")
          else
            match state.applySnapshot snapshot with
            | (_, .error text) =>
              (if state.valid then lifecycle.terminate "invalid_orderbook_snapshot" else lifecycle, .error text)
            | (applied, .ok view) =>
              ({ lifecycle with orderbookState := some applied, minimumRecoverySequence := none }, .ok (some view))

def observedMinimum (lifecycle : KalshiV2WSLifecycle) (state : KalshiOrderbookState)
    (delta : KalshiOrderbookDelta) : Option ℤ :=
  let raised := lifecycle.minimumRecoverySequence.map fun minimum => max minimum delta.seq
  match state.view with
  | some current => if delta.seq ≠ current.seq + 1 then some (max (current.seq + 1) delta.seq) else raised
  | none => raised

def failedMinimum (lifecycle : KalshiV2WSLifecycle) (state : KalshiOrderbookState)
    (delta : KalshiOrderbookDelta) : Option ℤ :=
  match state.view with
  | some current =>
    let recoverySequence := max (current.seq + 1) delta.seq
    some (max ((lifecycle.observedMinimum state delta).getD recoverySequence) recoverySequence)
  | none => lifecycle.observedMinimum state delta

def receiveDelta (lifecycle : KalshiV2WSLifecycle) (epochId : ℤ) (delta : KalshiOrderbookDelta) :
    KalshiV2WSLifecycle × Except LifecycleError KalshiOrderbookView :=
  match lifecycle.requireEpoch epochId with
  | some text => (lifecycle, .error text)
  | none =>
    match lifecycle.orderbookState with
    | none => (lifecycle, .error "orderbook subscription acknowledgement and snapshot are required")
    | some state =>
      match lifecycle.acknowledged.get? .orderbookDelta with
      | none => (lifecycle, .error "orderbook_delta")
      | some expectedSid =>
        if delta.sid ≠ expectedSid ∨ delta.marketTicker ≠ lifecycle.marketTicker ∨
            delta.marketId ≠ lifecycle.marketId then
          (lifecycle.terminate "invalid_orderbook_identity", .error "delta does not match the active subscription")
        else
          match state.applyDelta delta with
          | (applied, .ok view) =>
            ({ lifecycle with
                orderbookState := some applied
                minimumRecoverySequence := lifecycle.observedMinimum state delta }, .ok view)
          | (applied, .error text) =>
            ({ lifecycle with
                orderbookState := some applied
                minimumRecoverySequence := lifecycle.failedMinimum state delta }, .error text)

def recoveryCommand (lifecycle : KalshiV2WSLifecycle) :
    KalshiV2WSLifecycle × Except LifecycleError (ℤ × KalshiOrderbookRecovery) :=
  match lifecycle.currentEpochId, lifecycle.orderbookState with
  | some _, some state =>
    match state.recovery with
    | none => (lifecycle, .error "orderbook recovery is not required")
    | some recovery =>
      ({ lifecycle with commandCounter := lifecycle.commandCounter + 1 },
        .ok (lifecycle.commandCounter + 1, recovery))
  | _, _ => (lifecycle, .error "no active orderbook recovery is available")

def receiveError (lifecycle : KalshiV2WSLifecycle) (epochId : ℤ) (response : KalshiWSErrorResponse) :
    KalshiV2WSLifecycle × Except LifecycleError Unit :=
  match lifecycle.requireEpoch epochId with
  | some text => (lifecycle, .error text)
  | none =>
    if (lifecycle.epochCommands.get? response.commandId).isNone then
      (lifecycle.terminate "invalid_error_correlation", .error "error response has an unknown command id")
    else (lifecycle.terminate s!"kalshi_ws_error:{response.code}", .ok ())

def terminateEpoch (lifecycle : KalshiV2WSLifecycle) (epochId : ℤ) (reason : String) :
    KalshiV2WSLifecycle × Except LifecycleError Unit :=
  match lifecycle.requireEpoch epochId with
  | some text => (lifecycle, .error text)
  | none =>
    if strip reason = "" then (lifecycle, .error "termination reason must be a non-empty string")
    else (lifecycle.terminate (strip reason), .ok ())

end KalshiV2WSLifecycle

end Callisto.Ws
