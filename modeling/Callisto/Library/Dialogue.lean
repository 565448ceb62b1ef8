import Callisto.Library.Runs

/-! Programs that put requests to their surroundings and go on with the replies, and what becomes of one over a sequence of replies. -/

namespace Callisto.Library

/-- Finished with a result, or waiting for the reply to a request. -/
inductive Dialogue (ω ρ α : Type) where
  | done (result : α)
  | ask (request : ω) (next : ρ → Dialogue ω ρ α)

namespace Dialogue

variable {ω ρ α β : Type}

def andThen : Dialogue ω ρ α → (α → Dialogue ω ρ β) → Dialogue ω ρ β
  | done result, rest => rest result
  | ask request next, rest => ask request fun reply => (next reply).andThen rest

instance : Monad (Dialogue ω ρ) where
  pure := done
  bind := andThen

theorem bind_assoc {γ : Type} (first : Dialogue ω ρ α) (rest : α → Dialogue ω ρ β) (last : β → Dialogue ω ρ γ) :
    first >>= rest >>= last = first >>= fun result => rest result >>= last := by
  induction first with
  | done result => rfl
  | ask request next ih => exact congrArg (ask request) (funext ih)

def send (request : ω) : Dialogue ω ρ ρ := ask request done

def request? : Dialogue ω ρ α → Option ω
  | done _ => none
  | ask request _ => some request

def answer : Dialogue ω ρ α → ρ → Dialogue ω ρ α
  | done result, _ => done result
  | ask _ next, reply => next reply

/-- Every request of the dialogue, whatever the replies, satisfies the property. -/
def AllAsk (good : ω → Prop) : Dialogue ω ρ α → Prop
  | done _ => True
  | ask request next => good request ∧ ∀ reply, (next reply).AllAsk good

theorem allAsk_send {good : ω → Prop} {request : ω} (holds : good request) : (send request : Dialogue ω ρ ρ).AllAsk good :=
  ⟨holds, fun _ => trivial⟩

theorem AllAsk.bind {good : ω → Prop} {first : Dialogue ω ρ α} {rest : α → Dialogue ω ρ β} (start : first.AllAsk good)
    (later : ∀ result, (rest result).AllAsk good) : (first >>= rest).AllAsk good := by
  induction first with
  | done result => exact later result
  | ask request next ih => exact ⟨start.1, fun reply => ih reply (start.2 reply)⟩

theorem AllAsk.request {good : ω → Prop} {dialogue : Dialogue ω ρ α} (all : dialogue.AllAsk good) {request : ω}
    (waits : dialogue.request? = some request) : good request := by
  cases dialogue with
  | done result => exact absurd waits nofun
  | ask first next =>
    have same : first = request := Option.some.inj waits
    exact same ▸ all.1

theorem AllAsk.answer {good : ω → Prop} {dialogue : Dialogue ω ρ α} (all : dialogue.AllAsk good) (reply : ρ) :
    (dialogue.answer reply).AllAsk good := by
  cases dialogue with
  | done result => trivial
  | ask request next => exact all.2 reply

end Dialogue

end Callisto.Library
