import Callisto.Ws.OrderbookHistory
import Callisto.Ws.SessionMoves
import Mathlib.Data.Fintype.Card

/-! Runs of a frame session, watched: the acknowledgements and the accepted frames of the current epoch,
the largest sequence number seen since continuity was lost, and the command ids handed out. -/

namespace Callisto.Ws

open Callisto.Library Callisto.Library.Runs KalshiV2WSFrameSession

inductive SessionEvent where
  | begin (headers : Except LifecycleError (List (String × String))) (timestampMs : ℤ)
  | receive (epochId : ℤ) (payload : Json)

structure Observed where
  session : KalshiV2WSFrameSession
  subscriptions : List KalshiWSSubscriptionCommand := []
  acks : List (ℤ × String) := []
  accepted : Option Accepted := none
  failure : Option ℤ := none
  issued : List ℤ := []

namespace Observed

def fresh (marketTicker marketId : String) : Observed :=
  { session := { lifecycle := { marketTicker := marketTicker, marketId := marketId } } }

/-- A new epoch forgets what the last one showed, also when its signer fails. -/
def begin (observed : Observed) (headers : Except LifecycleError (List (String × String))) (timestampMs : ℤ) :
    Observed :=
  let next := observed.session.begin headers timestampMs
  if next.1.lifecycle.epochCounter = observed.session.lifecycle.epochCounter then
    { observed with session := next.1 }
  else
    { session := next.1
      subscriptions := KalshiV2WSLifecycle.subscriptionCommands observed.session.lifecycle.marketTicker
        observed.session.lifecycle.commandCounter
      issued := match next.2 with
        | .ok instructions => observed.issued ++ instructions.subscriptions.map KalshiWSSubscriptionCommand.commandId
        | .error _ => observed.issued }

def requestedId : SessionOutcome → Option ℤ
  | .recoveryRequested _ commandId _ _ => some commandId
  | _ => none

def note (observed : Observed) (epochId : ℤ) (frame : Frame) (session : KalshiV2WSFrameSession)
    (issued : List ℤ) : Observed :=
  match frame with
  | .subscribed response =>
    { observed with
      session := session
      issued := issued
      acks := observed.acks ++ [(response.commandId, response.channel)]
      accepted := match observed.session.lifecycle.earlySnapshot with
        | some snapshot =>
          if response.channel = Channel.orderbookDelta.name then some ⟨snapshot, []⟩ else observed.accepted
        | none => observed.accepted }
  | .snapshot snapshot =>
    match (observed.session.lifecycle.receiveSnapshot epochId snapshot).2 with
    | .ok (some _) =>
      { observed with session := session, issued := issued, accepted := some ⟨snapshot, []⟩, failure := none }
    | _ => { observed with session := session, issued := issued }
  | .delta delta =>
    match (observed.session.lifecycle.receiveDelta epochId delta).2 with
    | .ok _ =>
      { observed with
        session := session
        issued := issued
        accepted := observed.accepted.map fun before => ⟨before.snapshot, before.deltas ++ [delta]⟩ }
    | .error _ =>
      { observed with
        session := session
        issued := issued
        failure := some (max (observed.failure.getD delta.seq) delta.seq) }
  | _ => { observed with session := session, issued := issued }

/-- What a frame of the current epoch adds. The end of an epoch forgets what it showed. -/
def follow (observed : Observed) (epochId : ℤ) (frame : Frame) (session : KalshiV2WSFrameSession)
    (outcome : SessionOutcome) : Observed :=
  let issued := observed.issued ++ (requestedId outcome).toList
  if session.lifecycle.currentEpochId = none then
    { session := session, subscriptions := observed.subscriptions, issued := issued }
  else observed.note epochId frame session issued

def receive (ops : TextOps) (observed : Observed) (epochId : ℤ) (payload : Json) : Observed :=
  if observed.session.IsCurrent epochId then
    let frame := decodeFrame ops payload
    let next := observed.session.receiveFrame ops epochId frame
    observed.follow epochId frame next.1 next.2
  else observed

def outcome (ops : TextOps) (observed : Observed) (epochId : ℤ) (payload : Json) : SessionOutcome :=
  (observed.session.receive ops epochId payload).2

def step (ops : TextOps) (observed : Observed) : SessionEvent → Observed
  | .begin headers timestampMs => observed.begin headers timestampMs
  | .receive epochId payload => observed.receive ops epochId payload

theorem session_note (observed : Observed) (epochId : ℤ) (frame : Frame) (session : KalshiV2WSFrameSession)
    (issued : List ℤ) : (observed.note epochId frame session issued).session = session := by
  cases frame with
  | snapshot snapshot =>
    simp only [note]
    split <;> rfl
  | delta delta =>
    simp only [note]
    split <;> rfl
  | _ => rfl

theorem session_follow (observed : Observed) (epochId : ℤ) (frame : Frame) (session : KalshiV2WSFrameSession)
    (outcome : SessionOutcome) : (observed.follow epochId frame session outcome).session = session := by
  unfold follow
  split_ifs
  · rfl
  · exact session_note observed epochId frame session _

theorem session_receive (ops : TextOps) (observed : Observed) (epochId : ℤ) (payload : Json) :
    (observed.receive ops epochId payload).session = (observed.session.receive ops epochId payload).1 := by
  unfold receive KalshiV2WSFrameSession.receive
  split_ifs
  · exact session_follow observed epochId _ _ _
  · rfl

/-- What frames and acknowledgements leave behind in an epoch, whatever its quantities. -/
structure Sound (observed : Observed) : Prop where
  epoch : ∀ epochId, observed.session.lifecycle.currentEpochId = some epochId →
    epochId = observed.session.lifecycle.epochCounter ∧ observed.session.lifecycle.terminalReason = none
  begun : ∀ epochId, observed.session.epochId = some epochId →
    epochId ≤ observed.session.lifecycle.epochCounter
  rooted : observed.session.lifecycle.orderbookState.isSome →
    (observed.session.lifecycle.acknowledged.get? .orderbookDelta).isSome
  asked : ∀ commandId channel, observed.session.lifecycle.pending.get? commandId = some channel →
    ∃ command ∈ observed.subscriptions, command.commandId = commandId ∧ command.channel = channel
  acked : ∀ channel, (observed.session.lifecycle.acknowledged.get? channel).isSome →
    ∃ command ∈ observed.subscriptions, command.channel = channel ∧
      (command.commandId, channel.name) ∈ observed.acks
  failing : ∀ largest, observed.failure = some largest →
    (∃ minimum, observed.session.lifecycle.minimumRecoverySequence = some minimum ∧ largest ≤ minimum) ∧
    ∃ state, observed.session.lifecycle.orderbookState = some state ∧ state.view = none
  recovering : ∀ state, observed.session.lifecycle.orderbookState = some state → state.recovery.isSome →
    observed.failure.isSome
  emitted : ∀ epochId, observed.session.IsCurrent epochId →
    (observed.session.recoveryEmitted = true ↔ observed.failure.isSome)
  ascending : observed.issued.Pairwise (· < ·)
  counted : ∀ commandId ∈ observed.issued, commandId ≤ observed.session.lifecycle.commandCounter

theorem sound_fresh (marketTicker marketId : String) : (fresh marketTicker marketId).Sound where
  epoch _ current := by cases current
  begun _ current := by cases current
  rooted present := by cases present
  asked _ _ found := by cases found
  acked _ found := by cases found
  failing _ failed := by cases failed
  recovering _ held := by cases held
  emitted _ current := by cases current.1
  ascending := List.Pairwise.nil
  counted _ member := by cases member

theorem asked_commands {marketTicker : String} {counter commandId : ℤ} {channel : Channel}
    (found : (KalshiV2WSLifecycle.commandChannels
      (KalshiV2WSLifecycle.subscriptionCommands marketTicker counter)).get? commandId = some channel) :
    ∃ command ∈ KalshiV2WSLifecycle.subscriptionCommands marketTicker counter,
      command.commandId = commandId ∧ command.channel = channel := by
  simp only [KalshiV2WSLifecycle.commandChannels, KalshiV2WSLifecycle.subscriptionCommands, List.foldl_cons,
    List.foldl_nil, Dict.get?_set, Dict.get?_empty] at found
  simp only [KalshiV2WSLifecycle.subscriptionCommands, List.mem_cons, List.not_mem_nil, or_false, exists_eq_or_imp,
    exists_eq_left]
  split_ifs at found with third second first
  · exact Or.inr (Or.inr ⟨third, Option.some.inj found⟩)
  · exact Or.inr (Or.inl ⟨second, Option.some.inj found⟩)
  · exact Or.inl ⟨first, Option.some.inj found⟩

theorem ascending_append {issued later : List ℤ} {counter : ℤ} (ascending : issued.Pairwise (· < ·))
    (counted : ∀ commandId ∈ issued, commandId ≤ counter) (laterAscending : later.Pairwise (· < ·))
    (above : ∀ commandId ∈ later, counter < commandId) : (issued ++ later).Pairwise (· < ·) := by
  rw [List.pairwise_append]
  refine ⟨ascending, laterAscending, fun old oldMember new newMember => ?_⟩
  exact lt_of_le_of_lt (counted old oldMember) (above new newMember)

/-- What `begin` can do: refuse its timestamp, start an epoch, or start one and fail to sign for it. -/
theorem begin_cases (session : KalshiV2WSFrameSession)
    (headers : Except LifecycleError (List (String × String))) (timestampMs : ℤ) :
    (∃ text, session.begin headers timestampMs = (session, .error text)) ∨
    ∃ started : KalshiV2WSLifecycle, started =
        { marketTicker := session.lifecycle.marketTicker
          marketId := session.lifecycle.marketId
          epochCounter := session.lifecycle.epochCounter + 1
          commandCounter := session.lifecycle.commandCounter + 3
          lastTimestampMs := timestampMs
          currentEpochId := some (session.lifecycle.epochCounter + 1)
          epochCommands := KalshiV2WSLifecycle.commandChannels (KalshiV2WSLifecycle.subscriptionCommands
            session.lifecycle.marketTicker session.lifecycle.commandCounter)
          pending := KalshiV2WSLifecycle.commandChannels (KalshiV2WSLifecycle.subscriptionCommands
            session.lifecycle.marketTicker session.lifecycle.commandCounter) } ∧
      ((∃ text, session.begin headers timestampMs = ({ session with lifecycle := started }, .error text)) ∨
        ∃ instructions : KalshiWSConnectionInstructions,
          instructions.subscriptions = KalshiV2WSLifecycle.subscriptionCommands session.lifecycle.marketTicker
            session.lifecycle.commandCounter ∧
          session.begin headers timestampMs =
            (⟨started, some (session.lifecycle.epochCounter + 1), Dict.empty, false⟩, .ok instructions)) := by
  unfold KalshiV2WSFrameSession.begin KalshiV2WSLifecycle.beginConnection
  by_cases positive : timestampMs ≤ 0
  · exact Or.inl ⟨"timestamp_ms must be a positive integer", by simp only [if_pos positive]⟩
  by_cases later : timestampMs ≤ session.lifecycle.lastTimestampMs
  · exact Or.inl ⟨"connection timestamp_ms must strictly increase", by simp only [if_neg positive, if_pos later]⟩
  simp only [if_neg positive, if_neg later]
  refine Or.inr ⟨_, rfl, ?_⟩
  cases headers with
  | error text => exact Or.inl ⟨text, rfl⟩
  | ok signed => exact Or.inr ⟨⟨_, timestampMs, signed, _⟩, rfl, rfl⟩

theorem sound_begin {observed : Observed} (sound : observed.Sound)
    (headers : Except LifecycleError (List (String × String))) (timestampMs : ℤ) :
    (observed.begin headers timestampMs).Sound := by
  unfold begin
  rcases begin_cases observed.session headers timestampMs with
    ⟨text, result⟩ | ⟨started, rfl, ⟨text, result⟩ | ⟨instructions, commands, result⟩⟩
  · simp only [result, if_true]
    exact sound
  · have moved : ¬ observed.session.lifecycle.epochCounter + 1 = observed.session.lifecycle.epochCounter := by omega
    simp only [result, if_neg moved]
    constructor
    · intro epochId current
      exact ⟨(Option.some.inj current).symm, rfl⟩
    · intro epochId current
      have before := sound.begun epochId current
      simp only
      omega
    · intro present
      cases present
    · intro commandId channel found
      exact asked_commands found
    · intro channel found
      cases found
    · intro largest failed
      cases failed
    · intro state held
      cases held
    · intro epochId current
      have before := sound.begun epochId current.1
      have new := Option.some.inj current.2
      omega
    · exact sound.ascending
    · intro commandId member
      have before := sound.counted commandId member
      simp only
      omega
  · have moved : ¬ observed.session.lifecycle.epochCounter + 1 = observed.session.lifecycle.epochCounter := by omega
    simp only [result, if_neg moved]
    have ids : instructions.subscriptions.map KalshiWSSubscriptionCommand.commandId =
        [observed.session.lifecycle.commandCounter + 1, observed.session.lifecycle.commandCounter + 2,
          observed.session.lifecycle.commandCounter + 3] := by
      rw [commands]
      rfl
    constructor
    · intro epochId current
      exact ⟨(Option.some.inj current).symm, rfl⟩
    · intro epochId current
      exact (Option.some.inj current).symm.le
    · intro present
      cases present
    · intro commandId channel found
      exact asked_commands found
    · intro channel found
      cases found
    · intro largest failed
      cases failed
    · intro state held
      cases held
    · intro epochId _
      simp
    · rw [ids]
      apply ascending_append sound.ascending sound.counted
      · simp
      · simp
    · intro commandId member
      rw [ids] at member
      rcases List.mem_append.1 member with old | new
      · have before := sound.counted commandId old
        simp only
        omega
      · simp only [List.mem_cons, List.not_mem_nil, or_false] at new
        simp only
        omega

@[simp] theorem requestedId_ackOutcome (lifecycle : KalshiV2WSLifecycle) (epochId : ℤ) :
    requestedId (ackOutcome lifecycle epochId) = none := by
  unfold ackOutcome
  split <;> rfl

@[simp] theorem requestedId_viewOutcome (lifecycle : KalshiV2WSLifecycle) (epochId : ℤ) (view : KalshiOrderbookView)
    (reason : String) : requestedId (viewOutcome lifecycle epochId view reason) = none := by
  unfold viewOutcome
  split <;> rfl

theorem follow_going {observed : Observed} {epochId : ℤ} {frame : Frame} {session : KalshiV2WSFrameSession}
    {outcome : SessionOutcome} (going : session.lifecycle.currentEpochId = some epochId) :
    observed.follow epochId frame session outcome =
      observed.note epochId frame session (observed.issued ++ (requestedId outcome).toList) := by
  have continuing : ¬ session.lifecycle.currentEpochId = none := by simp [going]
  exact if_neg continuing

theorem follow_closed (observed : Observed) (epochId : ℤ) (frame : Frame) (reason text : String) :
    observed.follow epochId frame (observed.session.closed reason) (.terminated epochId text) =
      { session := observed.session.closed reason
        subscriptions := observed.subscriptions
        issued := observed.issued } := by
  simp [follow, closed, KalshiV2WSLifecycle.terminate, requestedId]

section
variable {observed : Observed} (sound : observed.Sound)
include sound

theorem sound_closed (reason : String) :
    ({ session := observed.session.closed reason, subscriptions := observed.subscriptions, issued := observed.issued } :
      Observed).Sound where
  epoch _ current := by cases current
  begun := sound.begun
  rooted present := by cases present
  asked _ _ found := by cases found
  acked _ found := by cases found
  failing _ failed := by cases failed
  recovering _ held := by cases held
  emitted _ current := by cases current.2
  ascending := sound.ascending
  counted := sound.counted

theorem sound_acknowledged {response : KalshiWSSubscribed} {channel : Channel}
    (asked : observed.session.lifecycle.pending.get? response.commandId = some channel)
    (named : response.channel = channel.name) {book : Option KalshiOrderbookState}
    {early : Option KalshiOrderbookSnapshot} {sids : Dict Channel ℤ} {accepted : Option Accepted}
    (books : book = observed.session.lifecycle.orderbookState ∨ channel = .orderbookDelta ∧
      observed.session.lifecycle.acknowledged.get? .orderbookDelta = none ∧
      ∃ state, book = some state ∧ state.recovery = none) :
    Sound { observed with
      session := { observed.session with
        lifecycle := { noted observed.session.lifecycle response.commandId channel response.sid with
          orderbookState := book
          earlySnapshot := early }
        channelSids := sids }
      acks := observed.acks ++ [(response.commandId, response.channel)]
      accepted := accepted } where
  epoch := sound.epoch
  begun := sound.begun
  rooted present := by
    simp only [noted, Dict.get?_set]
    rcases books with rfl | ⟨rfl, -⟩
    · split_ifs
      · rfl
      · exact sound.rooted present
    · rfl
  asked commandId other found := by
    simp only [noted, Dict.get?_erase] at found
    split_ifs at found
    exact sound.asked commandId other found
  acked other found := by
    simp only [noted, Dict.get?_set] at found
    split_ifs at found with same
    · obtain ⟨command, member, id, subscribed⟩ := sound.asked _ _ asked
      refine ⟨command, member, by rw [subscribed, same], ?_⟩
      simp [id, named, same]
    · obtain ⟨command, member, subscribed, known⟩ := sound.acked other found
      exact ⟨command, member, subscribed, List.mem_append_left _ known⟩
  failing largest failed := by
    obtain ⟨watermark, state, held, hidden⟩ := sound.failing largest failed
    rcases books with rfl | ⟨rfl, new, -⟩
    · exact ⟨watermark, state, held, hidden⟩
    · have known := sound.rooted (by simp [held])
      rw [new] at known
      cases known
  recovering state held needed := by
    rcases books with rfl | ⟨-, -, other, rfl, quiet⟩
    · exact sound.recovering state held needed
    · cases held
      rw [quiet] at needed
      cases needed
  emitted := sound.emitted
  ascending := sound.ascending
  counted := sound.counted

theorem sound_booked {applied : KalshiOrderbookState} {minimum failure : Option ℤ} {emitted : Bool} {counter : ℤ}
    {accepted : Option Accepted} {issued : List ℤ} (had : observed.session.lifecycle.orderbookState.isSome)
    (failing : ∀ largest, failure = some largest →
      (∃ least, minimum = some least ∧ largest ≤ least) ∧ applied.view = none)
    (recovering : applied.recovery.isSome → failure.isSome) (emits : emitted = true ↔ failure.isSome)
    (ascending : issued.Pairwise (· < ·)) (counted : ∀ commandId ∈ issued, commandId ≤ counter) :
    Sound { observed with
      session := { observed.session with
        lifecycle := { withBook observed.session.lifecycle applied minimum with commandCounter := counter }
        recoveryEmitted := emitted }
      accepted := accepted
      failure := failure
      issued := issued } where
  epoch := sound.epoch
  begun := sound.begun
  rooted _ := sound.rooted had
  asked := sound.asked
  acked := sound.acked
  failing largest failed := ⟨(failing largest failed).1, applied, rfl, (failing largest failed).2⟩
  recovering state held needed := by
    cases held
    exact recovering needed
  emitted _ _ := emits
  ascending := ascending
  counted := counted

theorem calm_of_visible {state : KalshiOrderbookState} {view : KalshiOrderbookView}
    (held : observed.session.lifecycle.orderbookState = some state) (visible : state.view = some view) :
    observed.failure = none ∧ state.recovery = none := by
  have calm : observed.failure = none := by
    cases failed : observed.failure with
    | none => rfl
    | some largest =>
      obtain ⟨-, other, otherHeld, hidden⟩ := sound.failing largest failed
      rw [held] at otherHeld
      cases otherHeld
      rw [hidden] at visible
      cases visible
  refine ⟨calm, ?_⟩
  cases needed : state.recovery with
  | none => rfl
  | some recovery =>
    have failed := sound.recovering state held (by simp [needed])
    rw [calm] at failed
    cases failed

theorem sound_follow {ops : TextOps} {epochId : ℤ} {frame : Frame} {session : KalshiV2WSFrameSession}
    {outcome : SessionOutcome} (current : observed.session.IsCurrent epochId)
    (move : Move ops observed.session epochId frame session outcome) :
    (observed.follow epochId frame session outcome).Sound := by
  have emits := sound.emitted epochId current
  have goes := @follow_going observed epochId frame session outcome
  cases move with
  | closes _ reason text =>
    rw [follow_closed]
    exact sound_closed sound reason
  | acknowledgesStream response channel sids asked named stream =>
    rw [goes current.2]
    simp only [note, requestedId_ackOutcome, Option.toList_none, List.append_nil]
    exact sound_acknowledged sound asked named (Or.inl rfl)
  | acknowledgesBook response state sids asked named new early fresh =>
    rw [goes current.2]
    simp only [note, requestedId_ackOutcome, Option.toList_none, List.append_nil]
    exact sound_acknowledged sound asked named (Or.inr ⟨rfl, new, state, rfl, fresh.2⟩)
  | acknowledgesEarly response snapshot state sids asked named new early applied =>
    rw [goes current.2]
    simp only [note, requestedId_ackOutcome, Option.toList_none, List.append_nil]
    exact sound_acknowledged sound asked named (Or.inr ⟨rfl, new, state, rfl, applied.2⟩)
  | storesEarly snapshot waiting result =>
    rw [goes current.2]
    simp only [note, result, requestedId, Option.toList_none, List.append_nil]
    exact ⟨sound.epoch, sound.begun, sound.rooted, sound.asked, sound.acked, sound.failing, sound.recovering,
      sound.emitted, sound.ascending, sound.counted⟩
  | refusesSnapshot snapshot text result =>
    rw [goes current.2]
    simp only [note, result, requestedId, Option.toList_none, List.append_nil]
    exact sound
  | acceptsSnapshot snapshot state applied view held reaches application result =>
    rw [goes current.2]
    simp only [note, result, requestedId_viewOutcome, Option.toList_none, List.append_nil]
    refine sound_booked sound (by simp [held]) (fun _ failed => by cases failed) ?_ (by simp) sound.ascending
      sound.counted
    intro needed
    rcases state.applySnapshot_cases snapshot with ⟨-, -, accepted⟩ | ⟨-, visible, repeated⟩ | ⟨text, refused⟩
    · rw [accepted] at application
      cases application
      cases needed
    · rw [repeated] at application
      cases application
      rw [(calm_of_visible sound held visible).2] at needed
      cases needed
    · rw [refused] at application
      cases application
  | continues delta state applied view minimum held application result =>
    rw [goes current.2]
    simp only [note, result, requestedId_viewOutcome, Option.toList_none, List.append_nil]
    rcases state.applyDelta_cases delta with
      ⟨-, text, refused⟩ | ⟨_, _, _, _, text, refused⟩ | ⟨shown, visible, _, _, continued⟩
    · rw [refused] at application
      cases application
    · rw [refused] at application
      cases application
    · rw [continued] at application
      cases application
      have calm := calm_of_visible sound held visible
      refine sound_booked sound (by simp [held]) ?_ ?_ emits sound.ascending sound.counted
      · intro largest failed
        rw [calm.1] at failed
        cases failed
      · intro needed
        rw [calm.2] at needed
        cases needed
  | failsAgain delta state applied text minimum held application watermark emitted result =>
    rw [goes current.2]
    simp only [note, result, requestedId, Option.toList_none, List.append_nil]
    obtain ⟨old, failed⟩ := Option.isSome_iff_exists.1 (emits.1 emitted)
    obtain ⟨⟨least, known, reached⟩, other, otherHeld, hidden⟩ := sound.failing old failed
    rw [held] at otherHeld
    cases otherHeld
    have unchanged : applied = state := by
      rcases state.applyDelta_cases delta with ⟨-, _, refused⟩ | ⟨_, visible, _⟩ | ⟨_, visible, _⟩
      · rw [refused] at application
        cases application
        rfl
      · rw [hidden] at visible
        cases visible
      · rw [hidden] at visible
        cases visible
    refine sound_booked sound (by simp [held]) ?_ (fun _ => rfl) (by simp [emitted]) sound.ascending sound.counted
    intro largest raised
    cases raised
    refine ⟨⟨max least delta.seq, by rw [watermark.1 hidden, known]; rfl, ?_⟩, by rw [unchanged, hidden]⟩
    simp only [failed, Option.getD_some]
    omega
  | fails delta state applied text minimum recovery held application watermark silent needed result =>
    rw [goes current.2]
    simp only [note, result, requestedId, Option.toList_some]
    have calm : observed.failure = none := by
      have notFailed := emits.not.1 (by simp [silent])
      simpa using notFailed
    refine sound_booked sound (by simp [held]) ?_ (fun _ => rfl) (by simp) ?_ ?_
    · intro largest raised
      cases raised
      simp only [calm, Option.getD_none, max_self]
      rcases state.applyDelta_cases delta with
        ⟨-, _, refused⟩ | ⟨shown, visible, _, _, _, refused⟩ | ⟨_, _, _, _, continued⟩
      · -- the book is as it was, and nothing was lost before
        rw [refused] at application
        cases application
        have failed := sound.recovering _ held (by simp [needed])
        rw [calm] at failed
        cases failed
      · rw [refused] at application
        cases application
        exact ⟨watermark.2 shown visible, rfl⟩
      · rw [continued] at application
        cases application
    · apply ascending_append sound.ascending sound.counted
      · simp
      · simp
    · intro commandId member
      rcases List.mem_append.1 member with old | new
      · have before := sound.counted commandId old
        omega
      · rw [List.mem_singleton.1 new]
  | surfaces channel sid rawSid msg =>
    rw [goes current.2]
    simp only [note, requestedId, Option.toList_none, List.append_nil]
    exact sound

end

end Observed

end Callisto.Ws
