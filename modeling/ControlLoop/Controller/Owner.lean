import ControlLoop.Resource.Basic
import ControlLoop.Client
/-!
# Owners

An object made on behalf of another refers to it as its controlling owner, by its identity.
-/
namespace ControlLoop.Owner

variable {α : Type} [Resource α]

/-- The reference for objects made on behalf of `a`, which must have a name and an identity. -/
def reference (a : α) : Except ClientError OwnerReference :=
  match (Resource.metadata a).name with
  | none => .error (.invalid "owner has no metadata.name")
  | some name =>
    match (Resource.metadata a).uid with
    | none => .error (.invalid s!"owner {name} has no uid yet")
    | some uid =>
      .ok {
        apiVersion := Resource.apiVersion α
        kind := Resource.kind α
        name := name
        uid := uid
        controller := some true
        blockOwnerDeletion := some true }

/-- Whether metadata refers to `owner` as the controlling owner. -/
def isControlledBy (m : Metadata) (owner : α) : Bool :=
  match (Resource.metadata owner).uid with
  | none => false
  | some uid =>
    (m.ownerReferences.getD []).any fun r => r.uid == uid && r.controller == some true

end ControlLoop.Owner
