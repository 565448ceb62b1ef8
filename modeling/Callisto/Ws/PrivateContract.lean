import Callisto.Library.Runs
import Callisto.Ws.PrivateLifecycle

/-! Runs of the private lifecycle: what it promises of acknowledgements, frames and principals, and when every error ends the epoch. -/

namespace Callisto.Ws

open Callisto.Library
open Callisto.Library.Runs

structure PrivateAck where
  epochId : ℤ
  commandId : ℤ
  channel : PrivateChannel
  sid : ℤ

/-- The lifecycle, with the epochs and commands that were issued, what was accepted, and the epochs that have ended. -/
structure PrivateHistory where
  lifecycle : KalshiPrivateWSLifecycle := {}
  epochs : List ℤ := []
  commands : List ℤ := []
  acknowledged : List PrivateAck := []
  frames : List KalshiPrivateWSFrame := []
  ended : List ℤ := []

inductive PrivateEvent where
  | begin (headers : PrivateReader (List (String × String))) (timestampMs : ℤ)
  | receive (epochId : ℤ) (envelope : Fields)
  | disconnect (epochId : ℤ) (reason : String)

namespace PrivateHistory

/-- The next state of the lifecycle; an epoch that is no longer current has ended. -/
def follow (history : PrivateHistory) (after : KalshiPrivateWSLifecycle) : PrivateHistory :=
  { history with
    lifecycle := after
    ended := if after.currentEpochId = history.lifecycle.currentEpochId then history.ended
      else history.lifecycle.currentEpochId.toList ++ history.ended }

def begin (history : PrivateHistory) (headers : PrivateReader (List (String × String))) (timestampMs : ℤ) : PrivateHistory :=
  let after := (history.lifecycle.beginConnection headers timestampMs).1
  if after.epochCounter = history.lifecycle.epochCounter then history
  else
    { history.follow after with
      epochs := history.epochs ++ [after.epochCounter]
      commands := history.commands ++
        (KalshiPrivateWSLifecycle.privateCommands history.lifecycle.commandCounter).map PrivateSubscriptionCommand.commandId }

def note (history : PrivateHistory) (epochId : ℤ) (envelope : Fields) : KalshiPrivateWSOutcome → PrivateHistory
  | .ack =>
    match KalshiPrivateWSLifecycle.readAckIds envelope with
    | .ok (commandId, sid) =>
      { history with
        acknowledged := history.acknowledged ++
          ((history.lifecycle.pending.get? commandId).map fun channel => ⟨epochId, commandId, channel, sid⟩).toList }
    | .error _ => history
  | .frame frame => { history with frames := history.frames ++ [frame] }
  | .stale => history

def receive (ops : TextOps) (history : PrivateHistory) (epochId : ℤ) (envelope : Fields) : PrivateHistory :=
  match history.lifecycle.receive ops epochId envelope with
  | (after, .ok outcome) => (history.note epochId envelope outcome).follow after
  | (after, .error _) => history.follow after

def step (ops : TextOps) (history : PrivateHistory) : PrivateEvent → PrivateHistory
  | .begin headers timestampMs => history.begin headers timestampMs
  | .receive epochId envelope => history.receive ops epochId envelope
  | .disconnect epochId reason => history.follow (history.lifecycle.disconnect epochId reason)

/-! ## The invariant -/

/-- What the record promises: ids increase, sids and commands are acknowledged once, and an epoch has one principal. -/
structure Kept (history : PrivateHistory) : Prop where
  epochs : history.epochs.Pairwise (· < ·)
  commands : history.commands.Pairwise (· < ·)
  sidsOnce : history.acknowledged.Pairwise fun ack later => ack.epochId = later.epochId → ack.sid ≠ later.sid
  commandsOnce : (history.acknowledged.map PrivateAck.commandId).Nodup
  oneUser : history.frames.Pairwise fun frame later => frame.epochId = later.epochId →
    ∀ userId, frame.payload.userId = some userId → ∀ other, later.payload.userId = some other → userId = other

structure Sound (history : PrivateHistory) : Prop extends Kept history where
  epochsIssued : ∀ epochId ∈ history.epochs, epochId ≤ history.lifecycle.epochCounter
  commandsIssued : ∀ commandId ∈ history.commands, commandId ≤ history.lifecycle.commandCounter
  current : ∀ epochId, history.lifecycle.currentEpochId = some epochId → epochId = history.lifecycle.epochCounter
  past : ∀ epochId ∈ history.ended, epochId ≤ history.lifecycle.epochCounter ∧ history.lifecycle.currentEpochId ≠ some epochId
  stored : ∀ channel sid, history.lifecycle.sids.get? channel = some sid → ∃ ack ∈ history.acknowledged,
    history.lifecycle.currentEpochId = some ack.epochId ∧ ack.channel = channel ∧ ack.sid = sid
  held : ∀ ack ∈ history.acknowledged, history.lifecycle.currentEpochId = some ack.epochId →
    history.lifecycle.sids.get? ack.channel = some ack.sid
  asked : ∀ commandId channel, history.lifecycle.pending.get? commandId = some channel →
    commandId ≤ history.lifecycle.commandCounter ∧ ∀ ack ∈ history.acknowledged, ack.commandId ≠ commandId
  acks : ∀ ack ∈ history.acknowledged, ack.epochId ≤ history.lifecycle.epochCounter ∧ ack.commandId ≤ history.lifecycle.commandCounter
  users : ∀ frame ∈ history.frames, frame.epochId ≤ history.lifecycle.epochCounter ∧
    (history.lifecycle.currentEpochId = some frame.epochId →
      ∀ userId, frame.payload.userId = some userId → history.lifecycle.providerUserId = some userId)

theorem sound_start : ({} : PrivateHistory).Sound where
  epochs := List.Pairwise.nil
  commands := List.Pairwise.nil
  sidsOnce := List.Pairwise.nil
  commandsOnce := List.nodup_nil
  oneUser := List.Pairwise.nil
  epochsIssued _ member := nomatch member
  commandsIssued _ member := nomatch member
  current _ same := nomatch same
  past _ member := nomatch member
  stored _ _ found := nomatch found
  held _ member := nomatch member
  asked _ _ found := nomatch found
  acks _ member := nomatch member
  users _ member := nomatch member

variable {ops : TextOps} {history : PrivateHistory} {epochId : ℤ} {envelope : Fields}

theorem sound_same {after : KalshiPrivateWSLifecycle} (same : after.currentEpochId = history.lifecycle.currentEpochId)
    (sound : ({ history with lifecycle := after } : PrivateHistory).Sound) : (history.follow after).Sound := by
  unfold follow
  rw [if_pos same]
  exact sound

theorem sound_terminate (sound : history.Sound) (current : history.lifecycle.currentEpochId = some epochId) (reason : String) :
    (history.follow (history.lifecycle.terminate reason)).Sound := by
  have ended : (history.follow (history.lifecycle.terminate reason)).ended = epochId :: history.ended := by
    unfold follow
    rw [current]
    rfl
  have counter := sound.current epochId current
  constructor
  · exact ⟨sound.epochs, sound.commands, sound.sidsOnce, sound.commandsOnce, sound.oneUser⟩
  · exact sound.epochsIssued
  · exact sound.commandsIssued
  · nofun
  · intro other member
    rw [ended] at member
    cases List.mem_cons.mp member with
    | inl same => exact ⟨same.trans counter |>.le, nofun⟩
    | inr earlier => exact ⟨(sound.past other earlier).1, nofun⟩
  · nofun
  · nofun
  · nofun
  · exact sound.acks
  · exact fun frame member => ⟨(sound.users frame member).1, nofun⟩

theorem sound_disconnect (sound : history.Sound) (epochId : ℤ) (reason : String) :
    (history.follow (history.lifecycle.disconnect epochId reason)).Sound := by
  unfold KalshiPrivateWSLifecycle.disconnect
  split
  · next current => exact sound_terminate sound current reason
  · exact sound_same rfl sound

/-- An acknowledgement is of a command that was not acknowledged, with a sid that was not used. -/
theorem sound_ack (sound : history.Sound) (current : history.lifecycle.currentEpochId = some epochId) {commandId sid : ℤ} {channel : PrivateChannel}
    (ids : KalshiPrivateWSLifecycle.readAckIds envelope = .ok (commandId, sid)) (asked : history.lifecycle.pending.get? commandId = some channel)
    (new : history.lifecycle.sids.get? channel = none) (fresh : sid ∉ history.lifecycle.sids.values) :
    ((history.note epochId envelope .ack).follow { history.lifecycle with
      pending := history.lifecycle.pending.erase commandId, sids := history.lifecycle.sids.set channel sid }).Sound := by
  have noted : history.note epochId envelope .ack =
      { history with acknowledged := history.acknowledged ++ [⟨epochId, commandId, channel, sid⟩] } := by
    unfold note
    simp only [ids, asked, Option.map_some, Option.toList_some]
  have first := sound.asked commandId channel asked
  have unused : ∀ ack ∈ history.acknowledged, ack.epochId = epochId → ack.sid ≠ sid := by
    intro ack member same reused
    have stored := sound.held ack member (by rw [current, same])
    exact fresh (reused ▸ Dict.mem_values_of_get? stored)
  rw [noted]
  refine sound_same rfl ⟨⟨sound.epochs, sound.commands, ?_, ?_, sound.oneUser⟩, sound.epochsIssued, sound.commandsIssued, sound.current, sound.past,
    ?_, ?_, ?_, ?_, sound.users⟩
  · refine List.pairwise_append.mpr ⟨sound.sidsOnce, List.pairwise_singleton _ _, fun ack member later last => ?_⟩
    rw [List.mem_singleton.mp last]
    exact unused ack member
  · rw [List.map_append, List.nodup_append]
    refine ⟨sound.commandsOnce, List.nodup_singleton _, fun other member later last same => ?_⟩
    obtain ⟨ack, ackMember, rfl⟩ := List.mem_map.mp member
    rw [List.map_singleton, List.mem_singleton] at last
    exact first.2 ack ackMember (same.trans last)
  · intro other otherSid found
    rw [Dict.get?_set] at found
    split at found
    · next same =>
      exact ⟨_, List.mem_append_right _ List.mem_cons_self, current, same, Option.some.inj found⟩
    · obtain ⟨ack, member, stored⟩ := sound.stored other otherSid found
      exact ⟨ack, List.mem_append_left _ member, stored⟩
  · intro ack member running
    rw [Dict.get?_set]
    cases List.mem_append.mp member with
    | inl earlier =>
      have stored := sound.held ack earlier running
      split
      · next same =>
        rw [← same, new] at stored
        contradiction
      · exact stored
    | inr last => rw [List.mem_singleton.mp last, if_pos rfl]
  · intro other otherChannel found
    rw [Dict.get?_erase] at found
    split at found
    · contradiction
    · next different =>
      have earlier := sound.asked other otherChannel found
      refine ⟨earlier.1, fun ack member => ?_⟩
      cases List.mem_append.mp member with
      | inl before => exact earlier.2 ack before
      | inr last =>
        rw [List.mem_singleton.mp last]
        exact different
  · intro ack member
    cases List.mem_append.mp member with
    | inl earlier => exact sound.acks ack earlier
    | inr last =>
      rw [List.mem_singleton.mp last]
      exact ⟨(sound.current epochId current).le, first.1⟩

theorem sound_frame (sound : history.Sound) (current : history.lifecycle.currentEpochId = some epochId) {channel : PrivateChannel} {sid : ℤ}
    {payload : PrivatePayload}
    (user : ∀ known, history.lifecycle.providerUserId = some known → ∀ userId, payload.userId = some userId → known = userId) :
    ((history.note epochId envelope (.frame ⟨epochId, channel, sid, payload⟩)).follow
      { history.lifecycle with providerUserId := payload.userId <|> history.lifecycle.providerUserId }).Sound := by
  have noted : history.note epochId envelope (.frame ⟨epochId, channel, sid, payload⟩) =
      { history with frames := history.frames ++ [⟨epochId, channel, sid, payload⟩] } := rfl
  have known : ∀ frame ∈ history.frames, frame.epochId = epochId → ∀ userId, frame.payload.userId = some userId →
      history.lifecycle.providerUserId = some userId := by
    intro frame member same
    exact (sound.users frame member).2 (by rw [current, same])
  rw [noted]
  refine sound_same rfl ⟨⟨sound.epochs, sound.commands, sound.sidsOnce, sound.commandsOnce, ?_⟩, sound.epochsIssued,
    sound.commandsIssued, sound.current,
    sound.past, sound.stored, sound.held, sound.asked, sound.acks, ?_⟩
  · refine List.pairwise_append.mpr ⟨sound.oneUser, List.pairwise_singleton _ _, fun frame member later last => ?_⟩
    rw [List.mem_singleton.mp last]
    intro same userId named other otherNamed
    exact user userId (known frame member same userId named) other otherNamed
  · intro frame member
    cases List.mem_append.mp member with
    | inl earlier =>
      refine ⟨(sound.users frame earlier).1, fun running userId named => ?_⟩
      have before := (sound.users frame earlier).2 running userId named
      simp only
      cases own : payload.userId with
      | none => exact before
      | some other =>
        rw [user userId before other own]
        rfl
    | inr last =>
      rw [List.mem_singleton.mp last]
      refine ⟨(sound.current epochId current).le, fun _ userId named => ?_⟩
      simp only at named ⊢
      rw [named]
      rfl

theorem sound_begin (sound : history.Sound) (headers : PrivateReader (List (String × String))) (timestampMs : ℤ) :
    (history.begin headers timestampMs).Sound := by
  unfold begin
  simp only
  cases history.lifecycle.beginConnection_cases headers timestampMs with
  | inl same => rwa [same, if_pos rfl]
  | inr new =>
    have later : (history.lifecycle.started timestampMs).epochCounter = history.lifecycle.epochCounter + 1 := rfl
    rw [new, if_neg (by omega)]
    have ended : ∀ epochId ∈ (history.follow (history.lifecycle.started timestampMs)).ended, epochId ≤ history.lifecycle.epochCounter := by
      intro epochId member
      unfold follow at member
      simp only at member
      split at member
      · exact (sound.past epochId member).1
      · cases List.mem_append.mp member with
        | inl running => exact (sound.current epochId (Option.mem_toList.mp running)).le
        | inr earlier => exact (sound.past epochId earlier).1
    refine ⟨⟨?_, ?_, sound.sidsOnce, sound.commandsOnce, sound.oneUser⟩, ?_, ?_, ?_, ?_, nofun, ?_, ?_, ?_, ?_⟩
    · refine List.pairwise_append.mpr ⟨sound.epochs, List.pairwise_singleton _ _, fun epochId member other last => ?_⟩
      rw [List.mem_singleton.mp last]
      exact Int.lt_add_one_of_le (sound.epochsIssued epochId member)
    · refine List.pairwise_append.mpr ⟨sound.commands, ?_, fun commandId member other last => ?_⟩
      · simp [KalshiPrivateWSLifecycle.privateCommands]
      · have issued := sound.commandsIssued commandId member
        simp only [KalshiPrivateWSLifecycle.privateCommands, List.map_cons, List.map_nil, List.mem_cons, List.not_mem_nil, or_false] at last
        omega
    · intro epochId member
      cases List.mem_append.mp member with
      | inl earlier => exact (sound.epochsIssued epochId earlier).trans (by simp [follow, later])
      | inr last => exact (List.mem_singleton.mp last).le
    · intro commandId member
      change commandId ≤ history.lifecycle.commandCounter + 3
      cases List.mem_append.mp member with
      | inl earlier =>
        have issued := sound.commandsIssued commandId earlier
        omega
      | inr last =>
        simp only [KalshiPrivateWSLifecycle.privateCommands, List.map_cons, List.map_nil, List.mem_cons, List.not_mem_nil, or_false] at last
        omega
    · intro epochId running
      exact (Option.some.inj running).symm
    · intro epochId member
      have before := ended epochId member
      change epochId ≤ history.lifecycle.epochCounter + 1 ∧ some (history.lifecycle.epochCounter + 1) ≠ some epochId
      refine ⟨by omega, fun same => ?_⟩
      have equal := Option.some.inj same
      omega
    · intro ack member running
      have before := (sound.acks ack member).1
      have equal : history.lifecycle.epochCounter + 1 = ack.epochId := Option.some.inj running
      omega
    · intro commandId channel asked
      have range := KalshiPrivateWSLifecycle.pendingCommands_get? asked
      refine ⟨range.2, fun ack member same => ?_⟩
      have before := (sound.acks ack member).2
      omega
    · intro ack member
      have before := sound.acks ack member
      change ack.epochId ≤ history.lifecycle.epochCounter + 1 ∧ ack.commandId ≤ history.lifecycle.commandCounter + 3
      omega
    · intro frame member
      have before := (sound.users frame member).1
      refine ⟨before.trans (by simp [follow, later]), fun running => ?_⟩
      have equal : history.lifecycle.epochCounter + 1 = frame.epochId := Option.some.inj running
      omega

theorem sound_receive (sound : history.Sound) (ops : TextOps) (epochId : ℤ) (envelope : Fields) :
    (history.receive ops epochId envelope).Sound := by
  unfold receive KalshiPrivateWSLifecycle.receive
  by_cases current : history.lifecycle.currentEpochId = some epochId
  · rw [if_neg (not_not.mpr current)]
    cases read : history.lifecycle.readFrame ops epochId envelope with
    | error error =>
      cases error with
      | protocol text => exact sound_terminate sound current _
      | overflow => exact sound_same rfl sound
    | ok result =>
      obtain ⟨next, outcome⟩ := result
      simp only
      cases KalshiPrivateWSLifecycle.readFrame_accepts read with
      | ack ids asked new fresh => exact sound_ack sound current ids asked new fresh
      | frame acknowledged user => exact sound_frame sound current user
  · rw [if_pos current]
    exact sound_same rfl sound

theorem sound_step (ops : TextOps) (history : PrivateHistory) (event : PrivateEvent) (sound : history.Sound) :
    (history.step ops event).Sound := by
  cases event with
  | begin headers timestampMs => exact sound_begin sound headers timestampMs
  | receive epochId envelope => exact sound_receive sound ops epochId envelope
  | disconnect epochId reason => exact sound_disconnect sound epochId reason

/-! ## The contract -/

/-- What a call of `receive` promises. -/
structure Receives (ops : TextOps) (history : PrivateHistory) (epochId : ℤ) (envelope : Fields) : Prop where
  current : history.lifecycle.currentEpochId = some epochId →
    (∃ outcome, (history.lifecycle.receive ops epochId envelope).2 = .ok outcome ∧ (outcome = .ack ∨ ∃ frame, outcome = .frame frame)) ∨
    (∃ text, (history.lifecycle.receive ops epochId envelope).2 = .error (.protocol text)) ∧
      (history.lifecycle.receive ops epochId envelope).1.currentEpochId = none ∧
      (history.lifecycle.receive ops epochId envelope).1.sids = Dict.empty
  other : history.lifecycle.currentEpochId ≠ some epochId → history.lifecycle.receive ops epochId envelope = (history.lifecycle, .ok .stale)
  frame : ∀ frame, (history.lifecycle.receive ops epochId envelope).2 = .ok (.frame frame) →
    history.lifecycle.currentEpochId = some epochId ∧ frame.epochId = epochId ∧
      ∃ ack ∈ history.acknowledged, ack.epochId = epochId ∧ ack.channel = frame.channel ∧ ack.sid = frame.sid
  ended : epochId ∈ history.ended → (history.lifecycle.receive ops epochId envelope).2 = .ok .stale

def Promises (ops : TextOps) (history : PrivateHistory) : PrivateEvent → Prop
  | .begin _ _ => True
  | .receive epochId envelope => history.Receives ops epochId envelope
  | .disconnect epochId reason => history.lifecycle.currentEpochId ≠ some epochId → history.lifecycle.disconnect epochId reason = history.lifecycle

def InRange (ops : TextOps) (history : PrivateHistory) : PrivateEvent → Prop
  | .receive epochId envelope =>
    history.lifecycle.currentEpochId = some epochId → ¬ KalshiPrivateWSLifecycle.FrameOverflows ops history.lifecycle envelope
  | _ => True

theorem receive_frame (sound : history.Sound) {frame : KalshiPrivateWSFrame}
    (received : (history.lifecycle.receive ops epochId envelope).2 = .ok (.frame frame)) :
    history.lifecycle.currentEpochId = some epochId ∧ frame.epochId = epochId ∧
      ∃ ack ∈ history.acknowledged, ack.epochId = epochId ∧ ack.channel = frame.channel ∧ ack.sid = frame.sid := by
  unfold KalshiPrivateWSLifecycle.receive at received
  split at received
  · exact nomatch received
  · next current =>
    rw [not_not] at current
    split at received
    · next next_ outcome read =>
      have accepted := KalshiPrivateWSLifecycle.readFrame_accepts read
      rw [Except.ok.inj received] at accepted
      cases accepted with
      | frame acknowledged _ =>
        obtain ⟨ack, member, running, channel, sid⟩ := sound.stored _ _ acknowledged
        exact ⟨current, rfl, ack, member, Option.some.inj (running.symm.trans current), channel, sid⟩
    · exact nomatch received
    · exact nomatch received

theorem promises_iff (sound : history.Sound) (event : PrivateEvent) : history.Promises ops event ↔ history.InRange ops event := by
  cases event with
  | begin headers timestampMs => exact Iff.rfl
  | disconnect epochId reason => exact ⟨fun _ => trivial, fun _ other => if_neg other⟩
  | receive epochId envelope =>
    constructor
    · intro receives current past
      have raised : (history.lifecycle.receive ops epochId envelope).2 = .error .overflow := by
        unfold KalshiPrivateWSLifecycle.receive
        rw [if_neg (not_not.mpr current), KalshiPrivateWSLifecycle.readFrame_overflow.mpr past]
      cases receives.current current with
      | inl given =>
        obtain ⟨_, given, -⟩ := given
        rw [raised] at given
        contradiction
      | inr failed =>
        obtain ⟨⟨_, failed⟩, -⟩ := failed
        rw [raised] at failed
        exact nomatch Except.error.inj failed
    · intro inRange
      refine ⟨fun current => ?_, fun other => if_pos other, fun _ received => receive_frame sound received, fun past => ?_⟩
      · unfold KalshiPrivateWSLifecycle.receive
        rw [if_neg (not_not.mpr current)]
        cases read : history.lifecycle.readFrame ops epochId envelope with
        | ok result =>
          obtain ⟨next, outcome⟩ := result
          refine .inl ⟨outcome, rfl, ?_⟩
          cases KalshiPrivateWSLifecycle.readFrame_accepts read with
          | ack => exact .inl rfl
          | frame => exact .inr ⟨_, rfl⟩
        | error error =>
          cases error with
          | protocol text => exact .inr ⟨⟨text, rfl⟩, rfl, rfl⟩
          | overflow => exact absurd (KalshiPrivateWSLifecycle.readFrame_overflow.mp read) (inRange current)
      · unfold KalshiPrivateWSLifecycle.receive
        rw [if_pos (sound.past epochId past).2]

/-- What the lifecycle promises of a run: of the record in every state, and of every call. -/
def FailsClosed (ops : TextOps) (events : List PrivateEvent) : Prop :=
  Always (step ops) Kept ({} : PrivateHistory) events ∧ Meets (step ops) (Promises ops) ({} : PrivateHistory) events

/-- The lifecycle keeps its promises in exactly the runs in which no order of the current epoch overflows. -/
theorem failsClosed_iff (ops : TextOps) (events : List PrivateEvent) :
    FailsClosed ops events ↔ Meets (step ops) (InRange ops) ({} : PrivateHistory) events := by
  have kept : Always (step ops) Kept ({} : PrivateHistory) events := fun first _ =>
    (invariant_all (sound_step ops) sound_start first).toKept
  have promised : Meets (step ops) (Promises ops) ({} : PrivateHistory) events ↔ Meets (step ops) (InRange ops) ({} : PrivateHistory) events :=
    meets_iff_meets (fun history event sound _ => sound_step ops history event sound) (fun _ event sound => promises_iff sound event) sound_start
  exact ⟨fun closed => promised.mp closed.2, fun inRange => ⟨kept, promised.mpr inRange⟩⟩

/-! ## An order of the year 0 -/

def twoPlaces : TextOps where
  decimal text := if text = "0.50" then some ⟨50, -2⟩ else none
  isUuid text := text.length = 36

/-- An order that was created at the first instant of the year 1, in a zone one hour ahead of UTC. -/
def firstInstantOrder : Fields :=
  [("outcome_side", .str "yes"), ("book_side", .str "bid"), ("side", .str "yes"), ("is_yes", .bool true), ("status", .str "resting"),
    ("yes_price_dollars", .str "0.50"), ("fill_count_fp", .str "0.50"), ("remaining_count_fp", .str "0.50"), ("initial_count_fp", .str "0.50"),
    ("taker_fill_cost_dollars", .str "0.50"), ("maker_fill_cost_dollars", .str "0.50"), ("taker_fees_dollars", .str "0.50"),
    ("maker_fees_dollars", .str "0.50"), ("created_time", .str "0001-01-01T00:00:00+01:00"), ("created_ts_ms", .int 1)]

def firstInstantRun : List PrivateEvent :=
  [.begin (.ok []) 1,
    .receive 1 [("type", .str "subscribed"), ("id", .int 1), ("msg", .obj [("channel", .str "user_orders"), ("sid", .int 7)])],
    .receive 1 [("type", .str "user_order"), ("sid", .int 7), ("msg", .obj firstInstantOrder)]]

def raisesOverflow {α : Type} : PrivateReader α → Bool
  | .error .overflow => true
  | _ => false

/-- The order raises an `OverflowError`, and the epoch stays open. -/
theorem firstInstantRun_open : ¬ FailsClosed twoPlaces firstInstantRun := by
  intro closed
  obtain ⟨-, -, order, -⟩ := closed.2
  have raised : raisesOverflow (((run (step twoPlaces) ({} : PrivateHistory) (firstInstantRun.take 2)).lifecycle.receive twoPlaces 1
      [("type", .str "user_order"), ("sid", .int 7), ("msg", .obj firstInstantOrder)]).2) = true := by decide +kernel
  cases order.current (by decide +kernel) with
  | inl given =>
    obtain ⟨outcome, given, -⟩ := given
    have calm : raisesOverflow (Except.ok outcome : PrivateReader KalshiPrivateWSOutcome) = true := given ▸ raised
    contradiction
  | inr failed =>
    obtain ⟨⟨text, failed⟩, -⟩ := failed
    have calm : raisesOverflow (Except.error (.protocol text) : PrivateReader KalshiPrivateWSOutcome) = true := failed ▸ raised
    contradiction

end PrivateHistory

end Callisto.Ws
