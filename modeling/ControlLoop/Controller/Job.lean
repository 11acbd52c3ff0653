import ControlLoop.Duration
/-!
# Work that can pause

A job acts on a state in steps and may sleep between them. While it sleeps, others may change the
state.
-/
namespace ControlLoop

/-- Work on a state `σ` that ends with a `β`. -/
inductive Job (σ β : Type) : Type where
  | done (result : β)
  /-- Changes the state and goes on depending on what it was before. -/
  | act (effect : σ → σ) (next : σ → Job σ β)
  | sleep (duration : Duration) (next : Job σ β)

namespace Job

variable {σ β γ : Type}

/-- Goes on with the result of a job. -/
def bind : Job σ β → (β → Job σ γ) → Job σ γ
  | done b, f => f b
  | act effect next, f => act effect fun s => (next s).bind f
  | sleep d next, f => sleep d (next.bind f)

instance : Monad (Job σ) where
  pure := done
  bind := bind

/-- One change of the state. -/
def lift (f : StateM σ β) : Job σ β := act (fun s => (f s).2) fun s => done (f s).1

/-- How far a job gets before it sleeps or ends. -/
inductive Pause (σ β : Type) where
  | finished (result : β)
  | asleep (duration : Duration) (next : Job σ β)

/-- Runs a job until it sleeps or ends. -/
def advance : Job σ β → σ → Pause σ β × σ
  | done b, s => (.finished b, s)
  | act effect next, s => advance (next s) (effect s)
  | sleep d next, s => (.asleep d next, s)

end Job

end ControlLoop
