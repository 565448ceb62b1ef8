import Callisto.Library.Histories
import Callisto.Ws.SessionContract

/-! The coordinator of a frame session. A step is what a task does between two awaits; what the task that holds the transition lock has
come to stands in the lock, and every other task knows only the generation that it was called for. -/

namespace Callisto.Ws

open Callisto.Library Callisto.Library.Runs KalshiV2WSFrameSession

/-- What the coordinator does to its session and its transports. -/
inductive CoordinatorEvent where
  | begun (epochId : ℤ)
  | subscribed (epochId commandId : ℤ)
  | started (generation : ℕ) (epochId : ℤ) (transport : ℕ)
  | routed (generation : ℕ) (payload : Option Json) (outcome : SessionOutcome)
  /-- The connection is terminated, and its transport is closed before the task awaits again. -/
  | ended (generation transport : ℕ) (reason : String)
  | discarded (transport : ℕ)

/-- `_ActiveTransport` -/
structure ActiveTransport where
  generation : ℕ
  epochId : ℤ
  transport : ℕ

inductive Transition where
  | detached (transport : ℕ)
  | begun (transport : ℕ) (epochId : ℤ) (unsent : List KalshiWSSubscriptionCommand)
  | disconnecting

structure KalshiV2WSCoordinator where
  session : KalshiV2WSFrameSession
  transitionLock : Option Transition := none
  generationCounter : ℕ := 0
  active : Option ActiveTransport := none
  history : List CoordinatorEvent := []

/-- A step of a task. A payload that raises when it is read is `none`. -/
inductive CoordinatorStep where
  /-- `start` has the transition lock and detaches the current connection. -/
  | detach (transport : ℕ)
  /-- `start` is cancelled before it has the lock. -/
  | refuse (transport : ℕ)
  | begin (headers : Except LifecycleError (List (String × String))) (timestampMs : ℤ)
  | subscribe
  | commit
  /-- Anything that `start` awaits under the lock raises. -/
  | abandon
  /-- `receive_once` has read a payload. -/
  | route (generation : ℕ) (payload : Option Json)
  /-- A read, a send or a wait of a task fails or is cancelled. -/
  | abort (generation : ℕ) (reason : String)
  | disconnect (generation : ℕ)
  /-- `disconnect` returns or raises. -/
  | release

namespace KalshiV2WSCoordinator

def note (coordinator : KalshiV2WSCoordinator) (event : CoordinatorEvent) : KalshiV2WSCoordinator :=
  { coordinator with history := coordinator.history ++ [event] }

/-- `_terminate_active_state` of the active connection, with the `_close_transport` that follows it in every caller. -/
def terminateActiveState (coordinator : KalshiV2WSCoordinator) (active : ActiveTransport) (reason : String) : KalshiV2WSCoordinator :=
  { coordinator with
    session := (coordinator.session.terminate active.epochId reason).1
    active := none }.note (.ended active.generation active.transport reason)

/-- What is done with the connection of a generation while it is active. -/
def withActive (coordinator : KalshiV2WSCoordinator) (generation : ℕ) (change : ActiveTransport → KalshiV2WSCoordinator) :
    KalshiV2WSCoordinator :=
  match coordinator.active with
  | none => coordinator
  | some active => if active.generation = generation then change active else coordinator

/-- The critical section of `_route_payload`. -/
def routePayload (ops : TextOps) (coordinator : KalshiV2WSCoordinator) (active : ActiveTransport) (payload : Option Json) :
    KalshiV2WSCoordinator :=
  match payload with
  | none =>
    (coordinator.note (.routed active.generation none (.terminated active.epochId "malformed_decoded_frame"))).terminateActiveState active
      "malformed_decoded_frame"
  | some payload =>
    let received := coordinator.session.receive ops active.epochId payload
    let routed := { coordinator with session := received.1 }.note (.routed active.generation (some payload) received.2)
    match received.2 with
    | .terminated _ reason => routed.terminateActiveState active reason
    | _ => routed

/-- `start` gives the lock up and closes its candidate. -/
def discard (coordinator : KalshiV2WSCoordinator) (transport : ℕ) : KalshiV2WSCoordinator :=
  { coordinator with transitionLock := none }.note (.discarded transport)

def step (ops : TextOps) (coordinator : KalshiV2WSCoordinator) : CoordinatorStep → KalshiV2WSCoordinator
  | .detach transport =>
    if coordinator.transitionLock.isSome then coordinator
    else
      let holding := { coordinator with transitionLock := some (.detached transport) }
      match coordinator.active with
      | none => holding
      | some active => holding.terminateActiveState active "reconnected"
  | .refuse transport => coordinator.note (.discarded transport)
  | .begin headers timestampMs =>
    match coordinator.transitionLock with
    | some (.detached transport) =>
      match coordinator.session.begin headers timestampMs with
      | (session, .error _) => { coordinator with session := session }.discard transport
      | (session, .ok instructions) =>
        { coordinator with
          session := session
          transitionLock := some (.begun transport instructions.epochId instructions.subscriptions) }.note (.begun instructions.epochId)
    | _ => coordinator
  | .subscribe =>
    match coordinator.transitionLock with
    | some (.begun transport epochId (command :: unsent)) =>
      { coordinator with transitionLock := some (.begun transport epochId unsent) }.note (.subscribed epochId command.commandId)
    | _ => coordinator
  | .commit =>
    match coordinator.transitionLock with
    | some (.begun transport epochId []) =>
      { coordinator with
        transitionLock := none
        generationCounter := coordinator.generationCounter + 1
        active := some ⟨coordinator.generationCounter + 1, epochId, transport⟩ }.note
          (.started (coordinator.generationCounter + 1) epochId transport)
    | _ => coordinator
  | .abandon =>
    match coordinator.transitionLock with
    | some (.detached transport) => coordinator.discard transport
    | some (.begun transport epochId _) =>
      { coordinator with session := (coordinator.session.terminate epochId "connection_start_failed").1 }.discard transport
    | _ => coordinator
  | .route generation payload => coordinator.withActive generation fun active => coordinator.routePayload ops active payload
  | .abort generation reason => coordinator.withActive generation fun active => coordinator.terminateActiveState active reason
  | .disconnect generation =>
    if coordinator.transitionLock.isSome then coordinator
    else coordinator.withActive generation fun active =>
      { coordinator with transitionLock := some .disconnecting }.terminateActiveState active "disconnected"
  | .release =>
    match coordinator.transitionLock with
    | some .disconnecting => { coordinator with transitionLock := none }
    | _ => coordinator

end KalshiV2WSCoordinator

namespace CoordinatorEvent

/-- The generation that is under way after the events, with its epoch and its transport. -/
def live (history : List CoordinatorEvent) : Option ActiveTransport :=
  history.foldl (fun held event => match event with
    | .started generation epochId transport => some ⟨generation, epochId, transport⟩
    | .ended .. => none
    | _ => held) none

def generations (history : List CoordinatorEvent) : List ℕ :=
  history.filterMap fun
    | .started generation _ _ => some generation
    | _ => none

def epochs (history : List CoordinatorEvent) : List ℤ :=
  history.filterMap fun
    | .begun epochId => some epochId
    | _ => none

/-- What the events so far allow next. Only the generation under way takes frames and ends, with its transport, and an epoch begins and
becomes the next generation while none is under way. -/
def Allowed (earlier : List CoordinatorEvent) : CoordinatorEvent → Prop
  | .begun epochId => live earlier = none ∧ ∀ other ∈ epochs earlier, other < epochId
  | .subscribed epochId _ => live earlier = none ∧ (epochs earlier).getLast? = some epochId
  | .started generation epochId _ =>
    live earlier = none ∧ (epochs earlier).getLast? = some epochId ∧ generation = (generations earlier).length + 1
  | .routed generation _ _ => ∃ active, live earlier = some active ∧ active.generation = generation
  | .ended generation transport _ => ∃ epochId, live earlier = some ⟨generation, epochId, transport⟩
  | .discarded _ => True

def Passing : CoordinatorEvent → Prop
  | .subscribed .. | .routed .. | .discarded _ => True
  | _ => False

variable {history : List CoordinatorEvent} {event : CoordinatorEvent}

theorem live_append (history : List CoordinatorEvent) (event : CoordinatorEvent) :
    live (history ++ [event]) = match event with
      | .started generation epochId transport => some ⟨generation, epochId, transport⟩
      | .ended .. => none
      | _ => live history := by
  rw [live, List.foldl_append]
  rfl

theorem generations_append (history : List CoordinatorEvent) (event : CoordinatorEvent) :
    generations (history ++ [event]) = match event with
      | .started generation _ _ => generations history ++ [generation]
      | _ => generations history := by
  rw [generations, List.filterMap_append]
  cases event with
  | started => rfl
  | _ => exact List.append_nil _

theorem epochs_append (history : List CoordinatorEvent) (event : CoordinatorEvent) :
    epochs (history ++ [event]) = match event with
      | .begun epochId => epochs history ++ [epochId]
      | _ => epochs history := by
  rw [epochs, List.filterMap_append]
  cases event with
  | begun => rfl
  | _ => exact List.append_nil _

theorem Passing.facts (passing : Passing event) (history : List CoordinatorEvent) :
    live (history ++ [event]) = live history ∧ generations (history ++ [event]) = generations history ∧
      epochs (history ++ [event]) = epochs history := by
  rw [live_append, generations_append, epochs_append]
  cases event with
  | subscribed | routed | discarded => exact ⟨rfl, rfl, rfl⟩
  | begun | started | ended => cases passing

theorem numbered_of_lawful (lawful : Lawful Allowed history) :
    generations history = List.range' 1 (generations history).length ∧ (epochs history).Pairwise (· < ·) := by
  induction lawful with
  | nil => exact ⟨rfl, List.Pairwise.nil⟩
  | @snoc earlier event before law ih =>
    rw [generations_append, epochs_append]
    cases event with
    | started generation epochId transport =>
      obtain ⟨-, -, rfl⟩ := law
      refine ⟨?_, ih.2⟩
      rw [List.length_append, List.length_singleton, List.range'_1_concat, ← ih.1, Nat.add_comm 1]
    | begun epochId =>
      refine ⟨ih.1, List.pairwise_append.2 ⟨ih.2, List.pairwise_singleton _ _, fun old member new last => ?_⟩⟩
      obtain rfl := List.mem_singleton.1 last
      exact law.2 old member
    | _ => exact ih

end CoordinatorEvent

def KalshiV2WSFrameSession.Watched (session : KalshiV2WSFrameSession) : Prop :=
  ∃ observed : Observed, observed.session = session ∧ observed.Sound

section
variable {session : KalshiV2WSFrameSession} (watched : session.Watched)
include watched

theorem watched_terminate (epochId : ℤ) (reason : String) :
    (session.terminate epochId reason).1.Watched ∧
      (session.terminate epochId reason).1.lifecycle.epochCounter = session.lifecycle.epochCounter := by
  obtain ⟨observed, rfl, sound⟩ := watched
  unfold KalshiV2WSFrameSession.terminate
  split_ifs with current
  · have isOpen : observed.session.lifecycle.Open epochId := ⟨current, (sound.epoch epochId current).2⟩
    by_cases empty : strip reason = ""
    · have same : (observed.session.lifecycle.terminateEpoch epochId reason).1 = observed.session.lifecycle := by
        simp [KalshiV2WSLifecycle.terminateEpoch, KalshiV2WSLifecycle.requireEpoch_of_open isOpen, empty]
      rw [same]
      exact ⟨⟨observed, rfl, sound⟩, rfl⟩
    · rw [KalshiV2WSLifecycle.terminateEpoch_of_open isOpen empty]
      exact ⟨⟨_, rfl, Observed.sound_closed sound (strip reason)⟩, rfl⟩
  · exact ⟨⟨observed, rfl, sound⟩, rfl⟩

theorem watched_begin (headers : Except LifecycleError (List (String × String))) (timestampMs : ℤ) :
    (session.begin headers timestampMs).1.Watched ∧
      session.lifecycle.epochCounter ≤ (session.begin headers timestampMs).1.lifecycle.epochCounter := by
  obtain ⟨observed, rfl, sound⟩ := watched
  refine ⟨⟨observed.begin headers timestampMs, ?_, Observed.sound_begin sound headers timestampMs⟩, ?_⟩
  · unfold Observed.begin
    dsimp only
    split_ifs <;> rfl
  · rcases Observed.begin_cases observed.session headers timestampMs with
      ⟨text, result⟩ | ⟨started, rfl, ⟨text, result⟩ | ⟨instructions, -, result⟩⟩
    · rw [result]
    · rw [result]
      exact (lt_add_one _).le
    · rw [result]
      exact (lt_add_one _).le

theorem watched_receive (ops : TextOps) {epochId : ℤ} (current : session.IsCurrent epochId) (payload : Json) :
    (session.receive ops epochId payload).1.Watched ∧
      (session.receive ops epochId payload).1.lifecycle.epochCounter = session.lifecycle.epochCounter ∧
      ((session.receive ops epochId payload).1.IsCurrent epochId ∨
        ∃ reason, (session.receive ops epochId payload).2 = .terminated epochId reason) := by
  obtain ⟨observed, rfl, sound⟩ := watched
  have move := Observed.move_receive ops sound current (decodeFrame ops payload)
  obtain ⟨counter, epoch, goes⟩ := Observed.epoch_of_move current move
  have same : observed.session.receive ops epochId payload = observed.session.receiveFrame ops epochId (decodeFrame ops payload) :=
    if_pos current
  refine ⟨⟨observed.step ops (.receive epochId payload), Observed.session_receive ops observed epochId payload,
    Observed.sound_step ops sound (.receive epochId payload)⟩, ?_⟩
  rw [same]
  exact ⟨counter, goes.imp (fun still => ⟨epoch, still.1⟩) fun ended => ended.2⟩

end

theorem begin_ok {session next : KalshiV2WSFrameSession} {headers : Except LifecycleError (List (String × String))} {timestampMs : ℤ}
    {instructions : KalshiWSConnectionInstructions} (begins : session.begin headers timestampMs = (next, .ok instructions)) :
    next.IsCurrent instructions.epochId ∧ session.lifecycle.epochCounter < instructions.epochId ∧
      next.lifecycle.epochCounter = instructions.epochId := by
  unfold KalshiV2WSFrameSession.begin KalshiV2WSLifecycle.beginConnection at begins
  by_cases positive : timestampMs ≤ 0
  · simp [positive] at begins
  by_cases later : timestampMs ≤ session.lifecycle.lastTimestampMs
  · simp [positive, later] at begins
  cases headers with
  | error text => simp [positive, later, Except.map] at begins
  | ok signed =>
    simp only [positive, later, if_false, Except.map, Prod.mk.injEq, Except.ok.injEq] at begins
    obtain ⟨rfl, rfl⟩ := begins
    exact ⟨⟨rfl, rfl⟩, lt_add_one _, rfl⟩

namespace KalshiV2WSCoordinator

open CoordinatorEvent

/-- A coordinator whose history is lawful and says which connection is active. -/
structure Kept (coordinator : KalshiV2WSCoordinator) : Prop where
  lawful : Lawful Allowed coordinator.history
  under : live coordinator.history = coordinator.active
  counted : coordinator.generationCounter = (generations coordinator.history).length
  begun : ∀ epochId ∈ epochs coordinator.history, epochId ≤ coordinator.session.lifecycle.epochCounter
  watched : coordinator.session.Watched

/-- Nothing is active under a start, and the epoch that it has begun is the session's. -/
def Holds (coordinator : KalshiV2WSCoordinator) : Prop :=
  match coordinator.transitionLock with
  | some (.detached _) => coordinator.active = none
  | some (.begun _ epochId _) => coordinator.active = none ∧ coordinator.session.IsCurrent epochId ∧
      (epochs coordinator.history).getLast? = some epochId
  | _ => True

structure Orderly (coordinator : KalshiV2WSCoordinator) : Prop extends Kept coordinator where
  current : ∀ active, coordinator.active = some active → coordinator.session.IsCurrent active.epochId
  holds : coordinator.Holds

variable {coordinator after : KalshiV2WSCoordinator} {active : ActiveTransport} {event : CoordinatorEvent}

theorem Kept.locked (kept : coordinator.Kept) (lock : Option Transition) :
    ({ coordinator with transitionLock := lock } : KalshiV2WSCoordinator).Kept :=
  ⟨kept.lawful, kept.under, kept.counted, kept.begun, kept.watched⟩

theorem Kept.pass (kept : coordinator.Kept) (passing : Passing event) (law : Allowed coordinator.history event)
    (history : after.history = coordinator.history ++ [event]) (active : after.active = coordinator.active)
    (counter : after.generationCounter = coordinator.generationCounter) (watched : after.session.Watched)
    (grows : coordinator.session.lifecycle.epochCounter ≤ after.session.lifecycle.epochCounter) : after.Kept := by
  obtain ⟨sameLive, sameGenerations, sameEpochs⟩ := passing.facts coordinator.history
  rw [← history] at sameLive sameGenerations sameEpochs
  refine ⟨history ▸ kept.lawful.snoc law, by rw [sameLive, active, kept.under], by rw [counter, sameGenerations, kept.counted],
    fun epochId member => (kept.begun epochId (sameEpochs ▸ member)).trans grows, watched⟩

theorem Kept.terminate (kept : coordinator.Kept) (here : coordinator.active = some active)
    (free : ∀ transport epochId unsent, coordinator.transitionLock ≠ some (.begun transport epochId unsent)) (reason : String) :
    (coordinator.terminateActiveState active reason).Orderly := by
  obtain ⟨watched, counter⟩ := watched_terminate kept.watched active.epochId reason
  have law : Allowed coordinator.history (.ended active.generation active.transport reason) := ⟨active.epochId, kept.under.trans here⟩
  have sameGenerations : generations (coordinator.history ++ [.ended active.generation active.transport reason]) =
      generations coordinator.history := generations_append ..
  have sameEpochs : epochs (coordinator.history ++ [.ended active.generation active.transport reason]) = epochs coordinator.history :=
    epochs_append ..
  refine ⟨⟨kept.lawful.snoc law, live_append _ _, kept.counted.trans (congrArg List.length sameGenerations.symm),
    fun epochId member => (kept.begun epochId (sameEpochs ▸ member)).trans counter.symm.le, watched⟩, nofun, ?_⟩
  · unfold Holds
    split
    · rfl
    · next begun => exact absurd begun (free _ _ _)
    · trivial

theorem Orderly.unheld (orderly : coordinator.Orderly) (here : coordinator.active = some active) :
    ∀ transport epochId unsent, coordinator.transitionLock ≠ some (.begun transport epochId unsent) := by
  intro transport epochId unsent begun
  have holds := orderly.holds
  rw [Holds, begun] at holds
  exact absurd (here.symm.trans holds.1) nofun

theorem Orderly.discard (orderly : coordinator.Orderly) (idle : coordinator.active = none) {session : KalshiV2WSFrameSession}
    (watched : session.Watched) (grows : coordinator.session.lifecycle.epochCounter ≤ session.lifecycle.epochCounter) (transport : ℕ) :
    (({ coordinator with session := session } : KalshiV2WSCoordinator).discard transport).Orderly := by
  have passing : Passing (.discarded transport) := trivial
  refine ⟨orderly.toKept.pass passing trivial rfl rfl rfl watched grows, fun active here => ?_, trivial⟩
  exact absurd (idle.symm.trans here) nofun

theorem Orderly.route (orderly : coordinator.Orderly) (ops : TextOps) (here : coordinator.active = some active) (payload : Option Json) :
    (coordinator.routePayload ops active payload).Orderly := by
  have law (payload : Option Json) (outcome : SessionOutcome) :
      Passing (.routed active.generation payload outcome) ∧ Allowed coordinator.history (.routed active.generation payload outcome) :=
    ⟨trivial, active, orderly.under.trans here, rfl⟩
  have unheld := orderly.unheld here
  cases payload with
  | none =>
    have routed := law none (.terminated active.epochId "malformed_decoded_frame")
    have kept : (coordinator.note (.routed active.generation none (.terminated active.epochId "malformed_decoded_frame"))).Kept :=
      orderly.toKept.pass routed.1 routed.2 rfl rfl rfl orderly.watched le_rfl
    exact kept.terminate here unheld _
  | some payload =>
    obtain ⟨watched, counter, goes⟩ := watched_receive orderly.watched ops (orderly.current active here) payload
    rcases result : coordinator.session.receive ops active.epochId payload with ⟨session, outcome⟩
    rw [result] at watched counter goes
    have routed := law (some payload) outcome
    have kept : (({ coordinator with session := session } : KalshiV2WSCoordinator).note (.routed active.generation (some payload) outcome)).Kept :=
      orderly.toKept.pass routed.1 routed.2 rfl rfl rfl watched counter.symm.le
    have goesOn (current : session.IsCurrent active.epochId) :
        (({ coordinator with session := session } : KalshiV2WSCoordinator).note (.routed active.generation (some payload) outcome)).Orderly := by
      refine ⟨kept, fun other held => Option.some.inj (here.symm.trans held) ▸ current, ?_⟩
      unfold Holds
      split
      · next detached =>
        have holds := orderly.holds
        rw [Holds, show coordinator.transitionLock = _ from detached] at holds
        exact absurd (here.symm.trans holds) nofun
      · next begun => exact absurd begun (unheld _ _ _)
      · trivial
    simp only [routePayload, result]
    cases outcome with
    | terminated endedId reason => exact kept.terminate here unheld reason
    | _ => exact goesOn (goes.resolve_right nofun)

theorem orderly_step (ops : TextOps) (orderly : coordinator.Orderly) (step : CoordinatorStep) : (coordinator.step ops step).Orderly := by
  have holds := orderly.holds
  have within (generation : ℕ) (change : ActiveTransport → KalshiV2WSCoordinator)
      (changes : ∀ active, coordinator.active = some active → (change active).Orderly) : (coordinator.withActive generation change).Orderly := by
    unfold withActive
    split
    · exact orderly
    · next active here =>
      split_ifs
      · exact changes active here
      · exact orderly
  cases step with
  | detach transport =>
    simp only [KalshiV2WSCoordinator.step]
    split_ifs with held
    · exact orderly
    · have kept := orderly.toKept.locked (some (.detached transport))
      split
      · next idle => exact ⟨kept, orderly.current, idle⟩
      · next active here => exact kept.terminate here nofun "reconnected"
  | refuse transport =>
    have passing : Passing (.discarded transport) := trivial
    have epochsSame : epochs (coordinator.history ++ [.discarded transport]) = epochs coordinator.history := (passing.facts _).2.2
    refine ⟨orderly.toKept.pass passing trivial rfl rfl rfl orderly.watched le_rfl, orderly.current, ?_⟩
    simpa only [Holds, KalshiV2WSCoordinator.step, note, epochsSame] using holds
  | begin headers timestampMs =>
    simp only [KalshiV2WSCoordinator.step]
    split
    · next transport lock =>
      have idle : coordinator.active = none := by
        rw [Holds, lock] at holds
        exact holds
      obtain ⟨watched, grows⟩ := watched_begin orderly.watched headers timestampMs
      split
      · next session text begins =>
        rw [begins] at watched grows
        exact orderly.discard idle watched grows transport
      · next session instructions begins =>
        rw [begins] at watched
        obtain ⟨current, above, counter⟩ := begin_ok begins
        have under : live coordinator.history = none := orderly.under.trans idle
        have below (epochId : ℤ) (member : epochId ∈ epochs coordinator.history) : epochId < instructions.epochId :=
          (orderly.begun epochId member).trans_lt above
        refine ⟨⟨orderly.lawful.snoc ⟨under, below⟩, ?_, ?_, ?_, watched⟩, fun active here => ?_, idle, current, ?_⟩
        · exact (live_append _ _).trans orderly.under
        · rw [note, generations_append]
          exact orderly.counted
        · intro epochId member
          rw [note, epochs_append] at member
          rcases List.mem_append.1 member with old | new
          · exact counter ▸ (below epochId old).le
          · rw [List.mem_singleton.1 new]
            exact counter.ge
        · exact absurd (idle.symm.trans here) nofun
        · rw [note, epochs_append]
          exact List.getLast?_concat ..
    · exact orderly
  | subscribe =>
    simp only [KalshiV2WSCoordinator.step]
    split
    · next transport epochId command unsent lock =>
      rw [Holds, lock] at holds
      have passing : Passing (.subscribed epochId command.commandId) := trivial
      have epochsSame : epochs (coordinator.history ++ [.subscribed epochId command.commandId]) = epochs coordinator.history :=
        (passing.facts _).2.2
      refine ⟨orderly.toKept.pass passing ⟨orderly.under.trans holds.1, holds.2.2⟩ rfl rfl rfl orderly.watched le_rfl,
        orderly.current, holds.1, holds.2.1, epochsSame ▸ holds.2.2⟩
    · exact orderly
  | commit =>
    simp only [KalshiV2WSCoordinator.step]
    split
    · next transport epochId lock =>
      rw [Holds, lock] at holds
      have law : Allowed coordinator.history (.started (coordinator.generationCounter + 1) epochId transport) :=
        ⟨orderly.under.trans holds.1, holds.2.2, by rw [orderly.counted]⟩
      refine ⟨⟨orderly.lawful.snoc law, live_append _ _, ?_, ?_, orderly.watched⟩, fun active here => ?_, trivial⟩
      · rw [note, generations_append, orderly.counted, List.length_append]
        rfl
      · intro other member
        rw [note, epochs_append] at member
        exact orderly.begun other member
      · cases here
        exact holds.2.1
    · exact orderly
  | abandon =>
    simp only [KalshiV2WSCoordinator.step]
    split
    · next transport lock =>
      rw [Holds, lock] at holds
      exact orderly.discard holds orderly.watched le_rfl transport
    · next transport epochId unsent lock =>
      rw [Holds, lock] at holds
      obtain ⟨watched, counter⟩ := watched_terminate orderly.watched epochId "connection_start_failed"
      exact orderly.discard holds.1 watched counter.symm.le transport
    · exact orderly
  | route generation payload => exact within generation _ fun active here => orderly.route ops here payload
  | abort generation reason => exact within generation _ fun active here => orderly.toKept.terminate here (orderly.unheld here) reason
  | disconnect generation =>
    simp only [KalshiV2WSCoordinator.step]
    split_ifs
    · exact orderly
    · have kept := orderly.toKept.locked (some .disconnecting)
      exact within generation _ fun active here => kept.terminate here nofun "disconnected"
  | release =>
    simp only [KalshiV2WSCoordinator.step]
    split
    · exact ⟨orderly.toKept.locked none, orderly.current, trivial⟩
    · exact orderly

/-- In every interleaving of the tasks of a coordinator the events before an event allow it, the generations are numbered one after the other
and the epochs ascend, and the connection that the history says is under way is the active one, whose epoch is the session's. -/
theorem coordinator_run (ops : TextOps) (marketTicker marketId : String) (steps : List CoordinatorStep) :
    let coordinator := run (step ops) { session := { lifecycle := { marketTicker := marketTicker, marketId := marketId } } } steps
    (∀ earlier event later, coordinator.history = earlier ++ event :: later → Allowed earlier event) ∧
      generations coordinator.history = List.range' 1 coordinator.generationCounter ∧ (epochs coordinator.history).Pairwise (· < ·) ∧
      live coordinator.history = coordinator.active ∧
      ∀ active, coordinator.active = some active → coordinator.session.IsCurrent active.epochId := by
  have watched : KalshiV2WSFrameSession.Watched { lifecycle := { marketTicker := marketTicker, marketId := marketId } } :=
    ⟨_, rfl, Observed.sound_fresh marketTicker marketId⟩
  have start : KalshiV2WSCoordinator.Orderly { session := { lifecycle := { marketTicker := marketTicker, marketId := marketId } } } :=
    ⟨⟨.nil, rfl, rfl, nofun, watched⟩, nofun, trivial⟩
  have orderly := @invariant_all _ _ (step ops) Orderly (fun _ event held => orderly_step ops held event) _ start steps
  obtain ⟨numbered, ascending⟩ := numbered_of_lawful orderly.lawful
  refine ⟨fun earlier event later split => ?_, orderly.counted ▸ numbered, ascending, orderly.under, orderly.current⟩
  have lawful := orderly.lawful
  rw [split] at lawful
  exact lawful.law

end KalshiV2WSCoordinator

end Callisto.Ws
