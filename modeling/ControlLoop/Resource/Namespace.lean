import ControlLoop.Resource.ConfigMap
/-!
# Namespaces

A namespace is itself an object. It belongs to the whole cluster.
-/
namespace ControlLoop

/-- What holds back the removal of a namespace. -/
structure NamespaceSpec where
  finalizers : Option (List String) := none
  deriving DecidableEq, Repr

/-- One aspect of the state of a namespace. -/
structure NamespaceCondition where
  lastTransitionTime : Option Timestamp := none
  message : Option String := none
  reason : Option String := none
  status : String := ""
  type : String := ""
  deriving DecidableEq, Repr

/-- What has been observed of a namespace. -/
structure NamespaceStatus where
  conditions : Option (List NamespaceCondition) := none
  phase : Option String := none
  deriving DecidableEq, Repr

/-- A namespace. -/
structure NamespaceObject where
  metadata : Metadata := {}
  spec : Option NamespaceSpec := none
  status : Option NamespaceStatus := none
  deriving DecidableEq, Repr

namespace NamespaceSpec

def encode (s : NamespaceSpec) : Json := .ofMembers [("finalizers", s.finalizers.map .ofStrings)]

def member (s : NamespaceSpec) (name : String) (v : Source) : Decoded NamespaceSpec :=
  match name with
  | "finalizers" =>
    return { s with finalizers := ← v.decodeOption (Source.decodeList Source.decodeString) }
  | _ => return s

def decode : Source → Decoded NamespaceSpec := Source.decodeMembers "NamespaceSpec" member {}

end NamespaceSpec

namespace NamespaceCondition

def encode (c : NamespaceCondition) : Json :=
  .ofMembers
    [("lastTransitionTime", c.lastTransitionTime.map .ofTime),
     ("message", c.message.map .str),
     ("reason", c.reason.map .str),
     ("status", some (.str c.status)),
     ("type", some (.str c.type))]

def member (c : NamespaceCondition) (name : String) (v : Source) : Decoded NamespaceCondition :=
  match name with
  | "lastTransitionTime" => return { c with lastTransitionTime := ← v.decodeOption Source.decodeTime }
  | "message" => return { c with message := ← v.decodeOption Source.decodeString }
  | "reason" => return { c with reason := ← v.decodeOption Source.decodeString }
  | "status" => return { c with status := (← v.decodeOption Source.decodeString).getD "" }
  | "type" => return { c with type := (← v.decodeOption Source.decodeString).getD "" }
  | _ => return c

def decode : Source → Decoded NamespaceCondition :=
  Source.decodeMembers "NamespaceCondition" member {}

end NamespaceCondition

namespace NamespaceStatus

def encode (s : NamespaceStatus) : Json :=
  .ofMembers
    [("conditions", s.conditions.map fun l => .arr (l.map NamespaceCondition.encode)),
     ("phase", s.phase.map .str)]

def member (s : NamespaceStatus) (name : String) (v : Source) : Decoded NamespaceStatus :=
  match name with
  | "conditions" =>
    return { s with conditions := ← v.decodeOption (Source.decodeList NamespaceCondition.decode) }
  | "phase" => return { s with phase := ← v.decodeOption Source.decodeString }
  | _ => return s

def decode : Source → Decoded NamespaceStatus := Source.decodeMembers "NamespaceStatus" member {}

end NamespaceStatus

namespace NamespaceObject

def encode (n : NamespaceObject) : Json :=
  .ofMembers
    [("apiVersion", some (.str "v1")),
     ("kind", some (.str "Namespace")),
     ("metadata", some n.metadata.encode),
     ("spec", n.spec.map NamespaceSpec.encode),
     ("status", n.status.map NamespaceStatus.encode)]

def member (n : NamespaceObject) (name : String) (v : Source) : Decoded NamespaceObject :=
  match name with
  | "apiVersion" => do v.decodeExactly "v1"; return n
  | "kind" => do v.decodeExactly "Namespace"; return n
  | "metadata" => return { n with metadata := (← v.decodeOption Metadata.decode).getD {} }
  | "spec" => return { n with spec := ← v.decodeOption NamespaceSpec.decode }
  | "status" => return { n with status := ← v.decodeOption NamespaceStatus.decode }
  | _ => return n

def decode : Source → Decoded NamespaceObject := Source.decodeMembers "Namespace" member {}

instance : Resource NamespaceObject where
  kind := "Namespace"
  group := ""
  version := "v1"
  plural := "namespaces"
  namespaced := false
  metadata := NamespaceObject.metadata
  setMetadata n m := { n with metadata := m }
  encode := encode
  decode := decode

end NamespaceObject

end ControlLoop
