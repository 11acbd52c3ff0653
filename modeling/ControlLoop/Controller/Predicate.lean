import ControlLoop.Informer.Basic
/-!
# Which changes matter

A predicate decides which changes put the key of an object into the queue.
-/
namespace ControlLoop

/-- A choice of changes. -/
inductive Predicate (α : Type) where
  | always
  /-- Leaves out changes of nothing but the status, the labels and the like. -/
  | generationChanged
  | custom (choose : Change α → Bool)

namespace Predicate

variable {α : Type} [Resource α]

/-- Whether the generation or the finalizers differ, or removal has been asked for. -/
def differs (old new : Metadata) : Bool :=
  old.generation ≠ new.generation ||
    (old.deletionTimestamp.isNone && new.deletionTimestamp.isSome) ||
    old.finalizers ≠ new.finalizers

def holds (p : Predicate α) (c : Change α) : Bool :=
  match p with
  | always => true
  | custom choose => choose c
  | generationChanged =>
    match c with
    | .modified (some old) new => differs (Resource.metadata old) (Resource.metadata new)
    | _ => true

end Predicate

end ControlLoop
