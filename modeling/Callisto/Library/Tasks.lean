import Callisto.Library.Dict
import Callisto.Library.Runs

/-! Tasks that share a state and take turns: what is left of a program is the steps it takes between the points
at which others may run. A rely-guarantee rule carries what is shown of each program alone to every interleaving. -/

namespace Callisto.Library

/-- What is left of a program. A step has an input that the world chooses, and waits where it gives nothing. -/
inductive Task (σ ι α : Type) : Type 1 where
  | done (result : α)
  | step {ρ : Type} (act : ι → σ → Option (σ × ρ)) (next : ρ → Task σ ι α)

namespace Task

variable {σ ι α β : Type} {rely guar : σ → σ → Prop} {post : α → σ → Prop} {task : Task σ ι α} {state : σ}

def read {ρ : Type} (look : σ → ρ) (next : ρ → Task σ ι α) : Task σ ι α := step (fun _ state => some (state, look state)) next

/-- Whatever the others do in between, every step keeps the guarantee and the result is as promised. -/
def Keeps (rely guar : σ → σ → Prop) (post : α → σ → Prop) : Task σ ι α → σ → Prop
  | done result, state => ∀ later, rely state later → post result later
  | step act next, state => ∀ later, rely state later → ∀ input after reply, act input later = some (after, reply) →
    guar later after ∧ Keeps rely guar post (next reply) after

theorem Keeps.later {later : σ} (trans : ∀ a b c, rely a b → rely b c → rely a c)
    (keeps : Keeps rely guar post task state) (others : rely state later) : Keeps rely guar post task later := by
  cases task with
  | done result => exact fun last further => keeps last (trans _ _ _ others further)
  | step act next => exact fun last further => keeps last (trans _ _ _ others further)

end Task

/-- A program of a client that runs, and the state it was started in. -/
structure Running (σ ι κ α : Type) where
  call : κ
  started : σ
  task : Task σ ι α

/-- A program of a client that has ended, with the states it was started and ended in. -/
structure Finished (σ κ α : Type) where
  client : ℕ
  call : κ
  started : σ
  result : α
  ended : σ

structure Pool (σ ι κ α : Type) where
  state : σ
  running : ℕ → Option (Running σ ι κ α) := fun _ => none
  finished : List (Finished σ κ α) := []

/-- What happens to a pool: a client calls a program, goes on with it, does an operation between programs, or breaks off. -/
inductive PoolEvent (ι κ ω : Type) where
  | call (client : ℕ) (call : κ)
  | advance (client : ℕ) (input : ι)
  | operate (client : ℕ) (operation : ω)
  | breakOff (client : ℕ)

/-- The programs and operations of the clients of a pool. A call or an operation that is not open to the client then does
nothing. -/
structure Clients (σ ι κ ω α : Type) where
  program : ℕ → κ → σ → Option (Task σ ι α)
  operation : ℕ → ω → σ → σ
  abandon : ℕ → σ → σ

namespace Pool

variable {σ ι κ ω α : Type}

def goOn (pool : Pool σ ι κ α) (client : ℕ) (call : κ) (started : σ) : Task σ ι α → σ → Pool σ ι κ α
  | .done result, state =>
    { state := state
      running := Function.update pool.running client none
      finished := pool.finished ++ [⟨client, call, started, result, state⟩] }
  | .step act next, state =>
    { pool with
      state := state
      running := Function.update pool.running client (some ⟨call, started, .step act next⟩) }

def step (clients : Clients σ ι κ ω α) (pool : Pool σ ι κ α) : PoolEvent ι κ ω → Pool σ ι κ α
  | .call client call =>
    match pool.running client with
    | some _ => pool
    | none =>
      match clients.program client call pool.state with
      | none => pool
      | some task => pool.goOn client call pool.state task pool.state
  | .advance client input =>
    match pool.running client with
    | none => pool
    | some running =>
      match running.task with
      | .done _ => pool
      | .step act next =>
        match act input pool.state with
        | none => pool
        | some (state, reply) => pool.goOn client running.call running.started (next reply) state
  | .operate client operation =>
    match pool.running client with
    | some _ => pool
    | none => { pool with state := clients.operation client operation pool.state }
  | .breakOff client =>
    { pool with
      state := clients.abandon client pool.state
      running := Function.update pool.running client none }

@[simp] theorem goOn_state (pool : Pool σ ι κ α) (client : ℕ) (call : κ) (started : σ) (task : Task σ ι α) (state : σ) :
    (pool.goOn client call started task state).state = state := by
  cases task <;> rfl

theorem call_state (clients : Clients σ ι κ ω α) (pool : Pool σ ι κ α) (client : ℕ) (call : κ) :
    (pool.step clients (.call client call)).state = pool.state := by
  simp only [Pool.step]
  cases pool.running client with
  | some running => rfl
  | none =>
    cases clients.program client call pool.state with
    | none => rfl
    | some task => exact goOn_state ..

/-- Every program was called as the predicate on its client, its call and the state then says. -/
structure CalledAs (good : ℕ → κ → σ → Prop) (pool : Pool σ ι κ α) : Prop where
  running : ∀ client running, pool.running client = some running → good client running.call running.started
  finished : ∀ entry ∈ pool.finished, good entry.client entry.call entry.started

def GoodCall (good : ℕ → κ → σ → Prop) (pool : Pool σ ι κ α) : PoolEvent ι κ ω → Prop
  | .call client call => good client call pool.state
  | _ => True

variable {good : ℕ → κ → σ → Prop} {pool : Pool σ ι κ α}

theorem CalledAs.goOn (called : pool.CalledAs good) {client : ℕ} {call : κ} {started : σ} (this : good client call started)
    (task : Task σ ι α) (state : σ) : (pool.goOn client call started task state).CalledAs good := by
  cases task with
  | done result =>
    refine ⟨fun other running runs => ?_, fun entry member => ?_⟩
    · by_cases same : other = client
      · subst same
        simp only [Pool.goOn, Function.update_self] at runs
        cases runs
      · simp only [Pool.goOn, Function.update_of_ne same] at runs
        exact called.running other running runs
    · rcases List.mem_append.1 member with old | new
      · exact called.finished entry old
      · rw [List.mem_singleton.1 new]
        exact this
  | step act next =>
    refine ⟨fun other running runs => ?_, called.finished⟩
    by_cases same : other = client
    · subst same
      simp only [Pool.goOn, Function.update_self] at runs
      cases runs
      exact this
    · simp only [Pool.goOn, Function.update_of_ne same] at runs
      exact called.running other running runs

theorem CalledAs.step {clients : Clients σ ι κ ω α} (called : pool.CalledAs good) {event : PoolEvent ι κ ω}
    (this : pool.GoodCall good event) : (pool.step clients event).CalledAs good := by
  cases event with
  | call client call =>
    simp only [Pool.step]
    cases runs : pool.running client with
    | some running => exact called
    | none =>
      cases starts : clients.program client call pool.state with
      | none => exact called
      | some task => exact called.goOn this task pool.state
  | advance client input =>
    simp only [Pool.step]
    cases runs : pool.running client with
    | none => exact called
    | some running =>
      cases left : running.task with
      | done result =>
        simp only [left]
        exact called
      | step act next =>
        simp only [left]
        cases taken : act input pool.state with
        | none => exact called
        | some moved => exact called.goOn (called.running client running runs) (next moved.2) moved.1
  | operate client operation =>
    simp only [Pool.step]
    cases runs : pool.running client with
    | some running => exact called
    | none => exact ⟨called.running, called.finished⟩
  | breakOff client =>
    refine ⟨fun other running runs => ?_, called.finished⟩
    by_cases same : other = client
    · subst same
      simp only [Pool.step, Function.update_self] at runs
      cases runs
    · simp only [Pool.step, Function.update_of_ne same] at runs
      exact called.running other running runs

end Pool

/-- A contract that every client keeps on its own: an invariant, what holds of a client between its programs, what a client
may rely on while others run, what each step of a program guarantees, and what a program that has ended promises. -/
structure Contract {σ ι κ ω α : Type} (clients : Clients σ ι κ ω α) where
  inv : σ → Prop
  idle : ℕ → σ → Prop
  rely : ℕ → σ → σ → Prop
  guar : ℕ → σ → σ → Prop
  post : ℕ → κ → σ → α → σ → Prop
  refl : ∀ client state, rely client state state
  trans : ∀ client a b c, rely client a b → rely client b c → rely client a c
  kept : ∀ client a b, inv a → guar client a b → inv b ∧ ∀ other, other ≠ client → rely other a b
  stable : ∀ client a b, inv a → inv b → idle client a → rely client a b → idle client b
  ends : ∀ client call started result state, post client call started result state → idle client state
  programs : ∀ client call state task, inv state → idle client state → clients.program client call state = some task →
    task.Keeps (rely client) (guar client) (post client call state) state
  operations : ∀ client operation state, inv state → idle client state →
    inv (clients.operation client operation state) ∧ idle client (clients.operation client operation state) ∧
      ∀ other, other ≠ client → rely other state (clients.operation client operation state)
  abandons : ∀ client state, inv state → inv (clients.abandon client state) ∧ idle client (clients.abandon client state) ∧
    ∀ other, other ≠ client → rely other state (clients.abandon client state)

namespace Contract

open Runs

variable {σ ι κ ω α : Type} {clients : Clients σ ι κ ω α} (contract : Contract clients)

structure Holds (pool : Pool σ ι κ α) : Prop where
  inv : contract.inv pool.state
  idle : ∀ client, pool.running client = none → contract.idle client pool.state
  running : ∀ client running, pool.running client = some running →
    running.task.Keeps (contract.rely client) (contract.guar client) (contract.post client running.call running.started) pool.state
  finished : ∀ entry ∈ pool.finished, contract.post entry.client entry.call entry.started entry.result entry.ended

variable {contract} {pool : Pool σ ι κ α} {client : ℕ} {state : σ}

theorem Holds.others (holds : contract.Holds pool) (inv : contract.inv state)
    (rely : ∀ other, other ≠ client → contract.rely other pool.state state) :
    (∀ other, other ≠ client → pool.running other = none → contract.idle other state) ∧
      ∀ other running, other ≠ client → pool.running other = some running →
        running.task.Keeps (contract.rely other) (contract.guar other) (contract.post other running.call running.started) state := by
  refine ⟨fun other apart idle => ?_, fun other running apart runs => ?_⟩
  · exact contract.stable other _ _ holds.inv inv (holds.idle other idle) (rely other apart)
  · exact (holds.running other running runs).later (contract.trans other) (rely other apart)

theorem Holds.goOn (holds : contract.Holds pool) {call : κ} {started : σ} {task : Task σ ι α} (inv : contract.inv state)
    (idle : ∀ other, other ≠ client → pool.running other = none → contract.idle other state)
    (running : ∀ other running, other ≠ client → pool.running other = some running →
      running.task.Keeps (contract.rely other) (contract.guar other) (contract.post other running.call running.started) state)
    (keeps : task.Keeps (contract.rely client) (contract.guar client) (contract.post client call started) state) :
    contract.Holds (pool.goOn client call started task state) := by
  cases task with
  | done result =>
    have promised : contract.post client call started result state := keeps state (contract.refl client state)
    refine ⟨inv, fun other none_ => ?_, fun other own runs => ?_, fun entry member => ?_⟩
    · by_cases same : other = client
      · subst same
        exact contract.ends _ _ _ _ _ promised
      · simp only [Pool.goOn, Function.update_of_ne same] at none_
        exact idle other same none_
    · by_cases same : other = client
      · subst same
        simp only [Pool.goOn, Function.update_self] at runs
        cases runs
      · simp only [Pool.goOn, Function.update_of_ne same] at runs
        exact running other own same runs
    · rcases List.mem_append.1 member with old | new
      · exact holds.finished entry old
      · rw [List.mem_singleton.1 new]
        exact promised
  | step act next =>
    refine ⟨inv, fun other none_ => ?_, fun other own runs => ?_, holds.finished⟩
    · by_cases same : other = client
      · subst same
        simp only [Pool.goOn, Function.update_self] at none_
        cases none_
      · simp only [Pool.goOn, Function.update_of_ne same] at none_
        exact idle other same none_
    · by_cases same : other = client
      · subst same
        simp only [Pool.goOn, Function.update_self] at runs
        cases runs
        exact keeps
      · simp only [Pool.goOn, Function.update_of_ne same] at runs
        exact running other own same runs

theorem Holds.advances (holds : contract.Holds pool) (client : ℕ) (input : ι) :
    (pool.step clients (.advance client input)).state = pool.state ∨
      contract.guar client pool.state (pool.step clients (.advance client input)).state := by
  simp only [Pool.step]
  cases runs : pool.running client with
  | none => exact Or.inl rfl
  | some running =>
    have keeps := holds.running client running runs
    cases left : running.task with
    | done result =>
      simp only [left]
      exact Or.inl trivial
    | step act next =>
      rw [left] at keeps
      simp only [left]
      cases taken : act input pool.state with
      | none => exact Or.inl rfl
      | some moved =>
        obtain ⟨state, reply⟩ := moved
        have guar := (keeps pool.state (contract.refl client pool.state) input state reply taken).1
        simp only [Pool.goOn_state]
        exact Or.inr guar

theorem Holds.step (holds : contract.Holds pool) (event : PoolEvent ι κ ω) : contract.Holds (pool.step clients event) := by
  cases event with
  | call client call =>
    simp only [Pool.step]
    cases runs : pool.running client with
    | some running => exact holds
    | none =>
      cases starts : clients.program client call pool.state with
      | none => exact holds
      | some task =>
        have keeps := contract.programs client call pool.state task holds.inv (holds.idle client runs) starts
        exact holds.goOn holds.inv (fun other _ none_ => holds.idle other none_)
          (fun other running _ own => holds.running other running own) keeps
  | advance client input =>
    simp only [Pool.step]
    cases runs : pool.running client with
    | none => exact holds
    | some running =>
      have keeps := holds.running client running runs
      cases left : running.task with
      | done result =>
        simp only [left]
        exact holds
      | step act next =>
        rw [left] at keeps
        simp only [left]
        cases taken : act input pool.state with
        | none => exact holds
        | some moved =>
          obtain ⟨state, reply⟩ := moved
          obtain ⟨guar, rest⟩ := keeps pool.state (contract.refl client pool.state) input state reply taken
          obtain ⟨inv, rely⟩ := contract.kept client pool.state state holds.inv guar
          obtain ⟨idle, others⟩ := holds.others inv rely
          exact holds.goOn inv idle others rest
  | operate client operation =>
    simp only [Pool.step]
    cases runs : pool.running client with
    | some running => exact holds
    | none =>
      obtain ⟨inv, still, rely⟩ := contract.operations client operation pool.state holds.inv (holds.idle client runs)
      obtain ⟨idle, others⟩ := holds.others inv rely
      refine ⟨inv, fun other none_ => ?_, fun other running own => ?_, holds.finished⟩
      · by_cases same : other = client
        · subst same
          exact still
        · exact idle other same none_
      · by_cases same : other = client
        · subst same
          rw [show pool.running other = some running from own] at runs
          cases runs
        · exact others other running same own
  | breakOff client =>
    obtain ⟨inv, still, rely⟩ := contract.abandons client pool.state holds.inv
    obtain ⟨idle, others⟩ := holds.others inv rely
    refine ⟨inv, fun other none_ => ?_, fun other running own => ?_, holds.finished⟩
    · by_cases same : other = client
      · subst same
        exact still
      · simp only [Pool.step, Function.update_of_ne same] at none_
        exact idle other same none_
    · by_cases same : other = client
      · subst same
        simp only [Pool.step, Function.update_self] at own
        cases own
      · simp only [Pool.step, Function.update_of_ne same] at own
        exact others other running same own

end Contract

end Callisto.Library
