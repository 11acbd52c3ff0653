import ControlLoop.Cluster.Session
/-!
# Finalizers

A finalizer holds back the removal of an object until its owner has cleaned up. Finalizers are written
under the condition that the object has not changed since it was read, so an edit made from an old
copy is refused instead of undoing what others wrote.
-/
namespace ControlLoop.Finalizer

variable {α : Type} [Resource α]

/-- Whether an object has a finalizer. -/
def has (a : α) (finalizer : String) : Bool :=
  (Resource.metadata a).finalizerList.any (· == finalizer)

/-- The finalizers with one more at the end. -/
def withAdded (a : α) (finalizer : String) : List String :=
  (Resource.metadata a).finalizerList ++ [finalizer]

/-- The finalizers without one of them. -/
def withRemoved (a : α) (finalizer : String) : List String :=
  (Resource.metadata a).finalizerList.filter (· != finalizer)

/-- The patch that writes a list of finalizers over the version of `a`. -/
def patchFor (a : α) (finalizers : List String) : Json :=
  .obj [("metadata", .obj
    [("finalizers", .ofStrings finalizers),
     ("resourceVersion", .str (Resource.versionText a))])]

/-- The address under which the object of a copy is written. -/
def target (a : α) : ObjectKey := ⟨(Resource.metadata a).ns, (Resource.metadata a).displayName⟩

variable [Collection α]

/-- Adds a finalizer to the object of a copy. -/
def add (a : α) (finalizer : String) : Request α :=
  Session.patch α (target a) (patchFor a (withAdded a finalizer))

/-- Removes a finalizer from the object of a copy and leaves those of others. -/
def remove (a : α) (finalizer : String) : Request α :=
  Session.patch α (target a) (patchFor a (withRemoved a finalizer))

end ControlLoop.Finalizer
