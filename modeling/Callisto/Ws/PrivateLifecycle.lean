import Callisto.Library.Traversals
import Callisto.Ws.PrivatePayload

/-! The lifecycle of a private-only connection: three subscriptions, their acknowledgements, and private frames that any error ends. -/

namespace Callisto.Ws

open Callisto.Library

inductive PrivateChannel where
  | userOrders
  | fill
  | marketPositions
  deriving DecidableEq

def PrivateChannel.name : PrivateChannel → String
  | .userOrders => "user_orders"
  | .fill => "fill"
  | .marketPositions => "market_positions"

structure KalshiPrivateWSFrame where
  epochId : ℤ
  channel : PrivateChannel
  sid : ℤ
  payload : PrivatePayload

inductive KalshiPrivateWSOutcome where
  | ack
  | frame (frame : KalshiPrivateWSFrame)
  | stale

structure PrivateSubscriptionCommand where
  commandId : ℤ
  channel : PrivateChannel

/-- The instructions of a new epoch. The url and the signed headers come from the signer. -/
structure PrivateConnectionInstructions where
  epochId : ℤ
  timestampMs : ℤ
  headers : List (String × String)
  subscriptions : List PrivateSubscriptionCommand

structure KalshiPrivateWSLifecycle where
  epochCounter : ℤ := 0
  commandCounter : ℤ := 0
  lastTimestampMs : ℤ := 0
  currentEpochId : Option ℤ := none
  pending : Dict ℤ PrivateChannel := Dict.empty
  sids : Dict PrivateChannel ℤ := Dict.empty
  providerUserId : Option String := none
  terminalReason : Option String := none

namespace KalshiPrivateWSLifecycle

def terminate (lifecycle : KalshiPrivateWSLifecycle) (reason : String) : KalshiPrivateWSLifecycle :=
  { lifecycle with terminalReason := some reason, currentEpochId := none, pending := Dict.empty, sids := Dict.empty, providerUserId := none }

/-- The subscription commands of an epoch, numbered after `counter`. -/
def privateCommands (counter : ℤ) : List PrivateSubscriptionCommand :=
  [⟨counter + 1, .userOrders⟩, ⟨counter + 2, .fill⟩, ⟨counter + 3, .marketPositions⟩]

def pendingCommands (commands : List PrivateSubscriptionCommand) : Dict ℤ PrivateChannel :=
  commands.foldl (fun dict command => dict.set command.commandId command.channel) Dict.empty

def started (lifecycle : KalshiPrivateWSLifecycle) (timestampMs : ℤ) : KalshiPrivateWSLifecycle where
  epochCounter := lifecycle.epochCounter + 1
  commandCounter := lifecycle.commandCounter + 3
  lastTimestampMs := timestampMs
  currentEpochId := some (lifecycle.epochCounter + 1)
  pending := pendingCommands (privateCommands lifecycle.commandCounter)

/-- `begin_connection`. The signer runs last, so its failure leaves the new epoch behind. -/
def beginConnection (lifecycle : KalshiPrivateWSLifecycle) (headers : PrivateReader (List (String × String))) (timestampMs : ℤ) :
    KalshiPrivateWSLifecycle × PrivateReader PrivateConnectionInstructions :=
  match readInteger "timestamp_ms" 1 int64Max (some (.int timestampMs)) with
  | .error text => (lifecycle, .error (.protocol text))
  | .ok _ =>
    if timestampMs ≤ lifecycle.lastTimestampMs then (lifecycle, .error (.protocol "connection timestamp_ms must strictly increase"))
    else
      (lifecycle.started timestampMs,
        headers.map fun signed => ⟨lifecycle.epochCounter + 1, timestampMs, signed, privateCommands lifecycle.commandCounter⟩)

/-- `_receive_ack` -/
def receiveAck (lifecycle : KalshiPrivateWSLifecycle) (envelope : Fields) : Reader KalshiPrivateWSLifecycle := do
  let commandId ← readInteger "subscription command id" 1 int64Max (Dict.find "id" envelope)
  let message ← readMapping "subscription msg" (Dict.find "msg" envelope)
  let channel ← readText message "channel"
  let sid ← readInteger "subscription sid" 1 int64Max (Dict.find "sid" message)
  match lifecycle.pending.get? commandId with
  | none => .error "invalid subscription acknowledgement"
  | some expected =>
    if channel ≠ expected.name ∨ (lifecycle.sids.get? expected).isSome ∨ sid ∈ lifecycle.sids.values then
      .error "invalid subscription acknowledgement"
    else .ok { lifecycle with pending := lifecycle.pending.erase commandId, sids := lifecycle.sids.set expected sid }

def readErrorCode (envelope : Fields) : Reader ℤ := do
  let message ← readMapping "error msg" (Dict.find "msg" envelope)
  readInteger "error code" 1 28 (Dict.find "code" message)

def readPrivate (lifecycle : KalshiPrivateWSLifecycle) (channel : PrivateChannel) (model : Fields → PrivateReader PrivatePayload)
    (envelope : Fields) : PrivateReader (ℤ × PrivatePayload) := do
  let sid ← strict (readInteger "sid" 1 int64Max (Dict.find "sid" envelope))
  if lifecycle.sids.get? channel ≠ some sid then .error (.protocol "private frame sid does not match its acknowledgement")
  else do
    let message ← strict (readMapping "msg" (Dict.find "msg" envelope))
    let payload ← model message
    .ok (sid, payload)

def acceptUser (lifecycle : KalshiPrivateWSLifecycle) (payload : PrivatePayload) : PrivateReader KalshiPrivateWSLifecycle :=
  match payload.userId with
  | none => .ok lifecycle
  | some userId =>
    if lifecycle.providerUserId ≠ none ∧ lifecycle.providerUserId ≠ some userId then
      .error (.protocol "provider principal changed within the connection epoch")
    else .ok { lifecycle with providerUserId := some userId }

def receivePrivate (lifecycle : KalshiPrivateWSLifecycle) (epochId : ℤ) (channel : PrivateChannel)
    (model : Fields → PrivateReader PrivatePayload) (envelope : Fields) : PrivateReader (KalshiPrivateWSLifecycle × KalshiPrivateWSOutcome) := do
  let (sid, payload) ← readPrivate lifecycle channel model envelope
  let accepted ← acceptUser lifecycle payload
  .ok (accepted, .frame ⟨epochId, channel, sid, payload⟩)

def privateModel (ops : TextOps) (frameType : String) : Option (PrivateChannel × (Fields → PrivateReader PrivatePayload)) :=
  if frameType = "user_order" then some (.userOrders, fun payload => (KalshiPrivateOrder.fromPayload ops payload).map .order)
  else if frameType = "fill" then some (.fill, fun payload => (strict (KalshiPrivateFill.fromPayload ops payload)).map .fill)
  else if frameType = "market_position" then
    some (.marketPositions, fun payload => (strict (KalshiPrivateMarketPosition.fromPayload ops payload)).map .marketPosition)
  else none

/-- The body of the `try` of `receive` but for error frames. -/
def receiveFrame (ops : TextOps) (lifecycle : KalshiPrivateWSLifecycle) (epochId : ℤ) (frameType : String) (envelope : Fields) :
    PrivateReader (KalshiPrivateWSLifecycle × KalshiPrivateWSOutcome) :=
  if frameType = "subscribed" then (strict (lifecycle.receiveAck envelope)).map fun acknowledged => (acknowledged, .ack)
  else match privateModel ops frameType with
    | some (channel, model) => lifecycle.receivePrivate epochId channel model envelope
    | none => .error (.protocol "unknown private frame type")

/-- The reason that a frame leaves when it raises a protocol error: an error frame has one of its own. -/
def failureReason (frameType : Reader String) (envelope : Fields) : String :=
  match frameType, readErrorCode envelope with
  | .ok "error", .ok code => s!"kalshi_ws_error:{code}"
  | _, _ => "malformed_private_frame"

def readFrame (ops : TextOps) (lifecycle : KalshiPrivateWSLifecycle) (epochId : ℤ) (envelope : Fields) :
    PrivateReader (KalshiPrivateWSLifecycle × KalshiPrivateWSOutcome) := do
  let frameType ← strict (readText envelope "type")
  if frameType = "error" then do
    let _ ← strict (readErrorCode envelope)
    .error (.protocol "Kalshi rejected a private subscription")
  else lifecycle.receiveFrame ops epochId frameType envelope

/-- `receive`. The handler catches `KeyError`, `TypeError` and `ValueError`; an overflow passes it by. -/
def receive (ops : TextOps) (lifecycle : KalshiPrivateWSLifecycle) (epochId : ℤ) (envelope : Fields) :
    KalshiPrivateWSLifecycle × PrivateReader KalshiPrivateWSOutcome :=
  if lifecycle.currentEpochId ≠ some epochId then (lifecycle, .ok .stale)
  else match lifecycle.readFrame ops epochId envelope with
    | .ok (next, outcome) => (next, .ok outcome)
    | .error (.protocol text) => (lifecycle.terminate (failureReason (readText envelope "type") envelope), .error (.protocol text))
    | .error .overflow => (lifecycle, .error .overflow)

def disconnect (lifecycle : KalshiPrivateWSLifecycle) (epochId : ℤ) (reason : String) : KalshiPrivateWSLifecycle :=
  if lifecycle.currentEpochId = some epochId then lifecycle.terminate reason else lifecycle

theorem beginConnection_cases (lifecycle : KalshiPrivateWSLifecycle) (headers : PrivateReader (List (String × String))) (timestampMs : ℤ) :
    (lifecycle.beginConnection headers timestampMs).1 = lifecycle ∨
      (lifecycle.beginConnection headers timestampMs).1 = lifecycle.started timestampMs := by
  unfold beginConnection
  split
  · exact .inl rfl
  · split
    · exact .inl rfl
    · exact .inr rfl

theorem pendingCommands_get? {counter commandId : ℤ} {channel : PrivateChannel}
    (asked : (pendingCommands (privateCommands counter)).get? commandId = some channel) : counter < commandId ∧ commandId ≤ counter + 3 := by
  simp only [pendingCommands, privateCommands, List.foldl_cons, List.foldl_nil, Dict.get?_set, Dict.get?_empty] at asked
  split at asked
  · omega
  · split at asked
    · omega
    · split at asked
      · omega
      · contradiction

/-! ## What a frame can do -/

def readAckIds (envelope : Fields) : Reader (ℤ × ℤ) := do
  let commandId ← readInteger "subscription command id" 1 int64Max (Dict.find "id" envelope)
  let message ← readMapping "subscription msg" (Dict.find "msg" envelope)
  let sid ← readInteger "subscription sid" 1 int64Max (Dict.find "sid" message)
  .ok (commandId, sid)

/-- A step of the state by an acknowledgement or an accepted frame. -/
inductive Accepts (lifecycle : KalshiPrivateWSLifecycle) (epochId : ℤ) (envelope : Fields) :
    KalshiPrivateWSLifecycle → KalshiPrivateWSOutcome → Prop where
  | ack {commandId sid : ℤ} {channel : PrivateChannel} (ids : readAckIds envelope = .ok (commandId, sid))
    (asked : lifecycle.pending.get? commandId = some channel)
    (new : lifecycle.sids.get? channel = none) (fresh : sid ∉ lifecycle.sids.values) :
    Accepts lifecycle epochId envelope
      { lifecycle with pending := lifecycle.pending.erase commandId, sids := lifecycle.sids.set channel sid } .ack
  | frame {channel : PrivateChannel} {sid : ℤ} {payload : PrivatePayload} (acknowledged : lifecycle.sids.get? channel = some sid)
    (user : ∀ known, lifecycle.providerUserId = some known → ∀ userId, payload.userId = some userId → known = userId) :
    Accepts lifecycle epochId envelope { lifecycle with providerUserId := payload.userId <|> lifecycle.providerUserId }
      (.frame ⟨epochId, channel, sid, payload⟩)

theorem map_overflow {α β : Type} {reader : PrivateReader α} {function : α → β} :
    reader.map function = .error .overflow ↔ reader = .error .overflow := by
  cases reader with
  | ok read => exact ⟨nofun, nofun⟩
  | error error => exact ⟨fun same => congrArg Except.error (Except.error.inj same), fun same => congrArg Except.error (Except.error.inj same)⟩

variable {ops : TextOps} {lifecycle next : KalshiPrivateWSLifecycle} {epochId : ℤ} {envelope : Fields} {outcome : KalshiPrivateWSOutcome}

theorem receiveAck_accepts (read : lifecycle.receiveAck envelope = .ok next) : Accepts lifecycle epochId envelope next .ack := by
  unfold receiveAck at read
  obtain ⟨commandId, idRead, read⟩ := bind_ok.1 read
  obtain ⟨message, messageRead, read⟩ := bind_ok.1 read
  obtain ⟨channel, -, read⟩ := bind_ok.1 read
  obtain ⟨sid, sidRead, read⟩ := bind_ok.1 read
  have ids : readAckIds envelope = .ok (commandId, sid) := by
    unfold readAckIds
    rw [idRead, messageRead]
    change (readInteger "subscription sid" 1 int64Max (Dict.find "sid" message) >>= fun sid => .ok (commandId, sid)) = _
    rw [sidRead]
    rfl
  split at read
  · exact nomatch read
  · next expected asked =>
    split at read
    · exact nomatch read
    · next new =>
      rw [not_or, not_or, Option.not_isSome_iff_eq_none] at new
      rw [← Except.ok.inj read]
      exact .ack ids asked new.2.1 new.2.2

theorem receivePrivate_accepts {channel : PrivateChannel} {model : Fields → PrivateReader PrivatePayload}
    (read : lifecycle.receivePrivate epochId channel model envelope = .ok (next, outcome)) : Accepts lifecycle epochId envelope next outcome := by
  unfold receivePrivate at read
  obtain ⟨⟨sid, payload⟩, privateRead, read⟩ := bind_ok.1 read
  obtain ⟨accepted, user, read⟩ := bind_ok.1 read
  have acknowledged : lifecycle.sids.get? channel = some sid := by
    unfold readPrivate at privateRead
    obtain ⟨sent, -, privateRead⟩ := bind_ok.1 privateRead
    split at privateRead
    · cases privateRead
    · next same =>
      obtain ⟨message, -, privateRead⟩ := bind_ok.1 privateRead
      obtain ⟨_, -, privateRead⟩ := bind_ok.1 privateRead
      rw [not_not] at same
      rw [same, (Prod.mk.inj (Except.ok.inj privateRead)).1]
  have pair := Prod.mk.inj (Except.ok.inj read)
  rw [← pair.1, ← pair.2]
  unfold acceptUser at user
  split at user
  · next anonymous =>
    have unchanged : accepted = { lifecycle with providerUserId := payload.userId <|> lifecycle.providerUserId } := by
      rw [anonymous, ← Except.ok.inj user]
      rfl
    rw [unchanged]
    refine .frame acknowledged fun known _ userId named => ?_
    rw [anonymous] at named
    contradiction
  · next userId named =>
    split at user
    · cases user
    · next same =>
      have set_ : accepted = { lifecycle with providerUserId := payload.userId <|> lifecycle.providerUserId } := by
        rw [named, ← Except.ok.inj user]
        rfl
      rw [set_]
      refine .frame acknowledged fun known set other otherNamed => ?_
      rw [named] at otherNamed
      rw [set] at same
      simp only [ne_eq, reduceCtorEq, not_false_eq_true, true_and, not_not, Option.some.injEq] at same
      exact same.trans (Option.some.inj otherNamed)

theorem readFrame_accepts (read : lifecycle.readFrame ops epochId envelope = .ok (next, outcome)) :
    Accepts lifecycle epochId envelope next outcome := by
  unfold readFrame at read
  obtain ⟨frameType, -, read⟩ := bind_ok.1 read
  split at read
  · obtain ⟨_, -, read⟩ := bind_ok.1 read
    exact nomatch read
  · unfold receiveFrame at read
    split at read
    · obtain ⟨acknowledged, ack, pair⟩ := map_ok read
      rw [← (Prod.mk.inj pair).1, ← (Prod.mk.inj pair).2]
      exact receiveAck_accepts (strict_ok.mp ack)
    · split at read
      · exact receivePrivate_accepts read
      · exact nomatch read

/-- A frame whose type is that of orders, on its acknowledged sid, with an order that overflows. -/
def FrameOverflows (ops : TextOps) (lifecycle : KalshiPrivateWSLifecycle) (envelope : Fields) : Prop :=
  readText envelope "type" = .ok "user_order" ∧
    ∃ sid, readInteger "sid" 1 int64Max (Dict.find "sid" envelope) = .ok sid ∧ lifecycle.sids.get? .userOrders = some sid ∧
      ∃ message, Dict.find "msg" envelope = some (.obj message) ∧ OrderOverflows ops message

theorem readMapping_ok {field : String} {value : Option Json} {fields : Fields} :
    readMapping field value = .ok fields ↔ value = some (.obj fields) := by
  unfold readMapping
  split
  · next found =>
    constructor
    · intro same
      rw [Except.ok.inj same]
    · intro same
      rw [Json.obj.inj (Option.some.inj same)]
  · next other =>
    constructor
    · nofun
    · intro same
      exact absurd same (other fields)

theorem readPrivate_overflow {channel : PrivateChannel} {model : Fields → PrivateReader PrivatePayload} :
    lifecycle.readPrivate channel model envelope = .error .overflow ↔
      ∃ sid, readInteger "sid" 1 int64Max (Dict.find "sid" envelope) = .ok sid ∧ lifecycle.sids.get? channel = some sid ∧
        ∃ message, Dict.find "msg" envelope = some (.obj message) ∧ model message = .error .overflow := by
  unfold readPrivate
  simp only [bind_overflow, strict_ne_overflow, strict_ok, false_or]
  refine exists_congr fun sid => and_congr_right fun _ => ?_
  by_cases same : lifecycle.sids.get? channel = some sid
  · simp [same, bind_overflow, strict_ne_overflow, strict_ok, readMapping_ok]
  · simp [same]

theorem acceptUser_ne_overflow (payload : PrivatePayload) : lifecycle.acceptUser payload ≠ .error .overflow := by
  unfold acceptUser
  split
  · nofun
  · split <;> nofun

theorem readFrame_overflow : lifecycle.readFrame ops epochId envelope = .error .overflow ↔ FrameOverflows ops lifecycle envelope := by
  unfold readFrame FrameOverflows
  simp only [bind_overflow, strict_ne_overflow, strict_ok, false_or]
  constructor
  · rintro ⟨frameType, typed, overflows⟩
    split at overflows
    · rw [bind_overflow] at overflows
      cases overflows with
      | inl early => exact absurd early (strict_ne_overflow _)
      | inr late => cases late.choose_spec.2
    · unfold receiveFrame at overflows
      split at overflows
      · exact absurd (map_overflow.mp overflows) (strict_ne_overflow _)
      · unfold privateModel at overflows
        split at overflows
        · next channel model found =>
          unfold receivePrivate at overflows
          rw [bind_overflow] at overflows
          have read : lifecycle.readPrivate channel model envelope = .error .overflow := by
            cases overflows with
            | inl early => exact early
            | inr late =>
              obtain ⟨_, -, overflows⟩ := late
              rw [bind_overflow] at overflows
              cases overflows with
              | inl user => exact absurd user (acceptUser_ne_overflow _)
              | inr late => cases late.choose_spec.2
          obtain ⟨sid, sent, acknowledged, message, found_, modelled⟩ := readPrivate_overflow.mp read
          split at found
          · next order =>
            obtain ⟨rfl, rfl⟩ := Prod.mk.inj (Option.some.inj found)
            exact ⟨order ▸ typed, sid, sent, acknowledged, message, found_, order_overflow.mp (map_overflow.mp modelled)⟩
          · split at found
            · obtain ⟨rfl, rfl⟩ := Prod.mk.inj (Option.some.inj found)
              exact absurd (map_overflow.mp modelled) (strict_ne_overflow _)
            · split at found
              · obtain ⟨rfl, rfl⟩ := Prod.mk.inj (Option.some.inj found)
                exact absurd (map_overflow.mp modelled) (strict_ne_overflow _)
              · cases found
        · cases overflows
  · rintro ⟨typed, sid, sent, acknowledged, message, found, overflows⟩
    refine ⟨"user_order", typed, ?_⟩
    have read : lifecycle.readPrivate .userOrders (fun payload => (KalshiPrivateOrder.fromPayload ops payload).map .order) envelope =
        .error .overflow :=
      readPrivate_overflow.mpr ⟨sid, sent, acknowledged, message, found, map_overflow.mpr (order_overflow.mpr overflows)⟩
    simp only [receiveFrame, privateModel, receivePrivate, read, String.reduceEq, if_false, if_true]
    rfl

end KalshiPrivateWSLifecycle

end Callisto.Ws
