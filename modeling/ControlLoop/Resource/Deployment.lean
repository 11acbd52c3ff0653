import ControlLoop.Resource.ConfigMap
/-!
# Deployments

A deployment keeps a number of replicas of a template running.

Of a container only the name and the image are kept, and of the spec of a pod only its containers. Every
other member of the two is passed over without being looked at, whatever its value, and is not written
again. So what is said of the form of a deployment, and of what a write leaves in it, is said of the
members that are kept.
-/
namespace ControlLoop

/-- One container of a template, as far as it is kept. -/
structure Container where
  name : String := ""
  image : Option String := none
  deriving DecidableEq, Repr

/-- The containers of a template; the rest of the spec of a pod is not kept. -/
structure PodSpec where
  containers : List Container := []
  deriving DecidableEq, Repr

/-- What each replica is made from. -/
structure PodTemplate where
  metadata : Option Metadata := none
  spec : Option PodSpec := none
  deriving DecidableEq, Repr

/-- A demand on a label. -/
structure LabelRequirement where
  key : String := ""
  operator : String := ""
  values : Option (List String) := none
  deriving DecidableEq, Repr

/-- Which replicas belong to a deployment. -/
structure LabelSelector where
  matchExpressions : Option (List LabelRequirement) := none
  matchLabels : Option StringMap := none
  deriving DecidableEq, Repr

/-- A number of replicas, or a text for a part of them. -/
inductive Amount where
  | count (n : Int)
  | text (text : String)
  deriving DecidableEq, Repr

/-- How many replicas may be exchanged at once. -/
structure RollingUpdate where
  maxSurge : Option Amount := none
  maxUnavailable : Option Amount := none
  deriving DecidableEq, Repr

/-- How replicas are exchanged for new ones. -/
structure DeploymentStrategy where
  rollingUpdate : Option RollingUpdate := none
  type : Option String := none
  deriving DecidableEq, Repr

/-- What is asked for. -/
structure DeploymentSpec where
  minReadySeconds : Option Int := none
  paused : Option Bool := none
  progressDeadlineSeconds : Option Int := none
  replicas : Option Int := none
  revisionHistoryLimit : Option Int := none
  selector : LabelSelector := {}
  strategy : Option DeploymentStrategy := none
  template : PodTemplate := {}
  deriving DecidableEq, Repr

/-- One aspect of the state of a deployment. -/
structure DeploymentCondition where
  lastTransitionTime : Option Timestamp := none
  lastUpdateTime : Option Timestamp := none
  message : Option String := none
  reason : Option String := none
  status : String := ""
  type : String := ""
  deriving DecidableEq, Repr

/-- What has been observed. -/
structure DeploymentStatus where
  availableReplicas : Option Int := none
  collisionCount : Option Int := none
  conditions : Option (List DeploymentCondition) := none
  observedGeneration : Option Int := none
  readyReplicas : Option Int := none
  replicas : Option Int := none
  unavailableReplicas : Option Int := none
  updatedReplicas : Option Int := none
  deriving DecidableEq, Repr

/-- A deployment. -/
structure Deployment where
  metadata : Metadata := {}
  spec : Option DeploymentSpec := none
  status : Option DeploymentStatus := none
  deriving DecidableEq, Repr

namespace Container

def encode (c : Container) : Json :=
  .ofMembers [("image", c.image.map .str), ("name", some (.str c.name))]

def member (c : Container) (name : String) (v : Source) : Decoded Container :=
  match name with
  | "image" => return { c with image := ← v.decodeOption Source.decodeString }
  | "name" => return { c with name := (← v.decodeOption Source.decodeString).getD "" }
  | _ => return c

def decode : Source → Decoded Container := Source.decodeMembers "Container" member {}

end Container

namespace PodSpec

def encode (s : PodSpec) : Json :=
  .ofMembers [("containers", some (.arr (s.containers.map Container.encode)))]

def member (s : PodSpec) (name : String) (v : Source) : Decoded PodSpec :=
  match name with
  | "containers" =>
    return { s with
      containers := (← v.decodeOption (Source.decodeList Container.decode)).getD [] }
  | _ => return s

def decode : Source → Decoded PodSpec := Source.decodeMembers "PodSpec" member {}

end PodSpec

namespace PodTemplate

def encode (t : PodTemplate) : Json :=
  .ofMembers [("metadata", t.metadata.map Metadata.encode), ("spec", t.spec.map PodSpec.encode)]

def member (t : PodTemplate) (name : String) (v : Source) : Decoded PodTemplate :=
  match name with
  | "metadata" => return { t with metadata := ← v.decodeOption Metadata.decode }
  | "spec" => return { t with spec := ← v.decodeOption PodSpec.decode }
  | _ => return t

def decode : Source → Decoded PodTemplate := Source.decodeMembers "PodTemplateSpec" member {}

end PodTemplate

namespace LabelRequirement

def encode (r : LabelRequirement) : Json :=
  .ofMembers
    [("key", some (.str r.key)),
     ("operator", some (.str r.operator)),
     ("values", r.values.map .ofStrings)]

def member (r : LabelRequirement) (name : String) (v : Source) : Decoded LabelRequirement :=
  match name with
  | "key" => return { r with key := (← v.decodeOption Source.decodeString).getD "" }
  | "operator" => return { r with operator := (← v.decodeOption Source.decodeString).getD "" }
  | "values" =>
    return { r with values := ← v.decodeOption (Source.decodeList Source.decodeString) }
  | _ => return r

def decode : Source → Decoded LabelRequirement :=
  Source.decodeMembers "LabelSelectorRequirement" member {}

end LabelRequirement

namespace LabelSelector

def encode (s : LabelSelector) : Json :=
  .ofMembers
    [("matchExpressions", s.matchExpressions.map fun l => .arr (l.map LabelRequirement.encode)),
     ("matchLabels", s.matchLabels.map .ofStringMap)]

def member (s : LabelSelector) (name : String) (v : Source) : Decoded LabelSelector :=
  match name with
  | "matchExpressions" =>
    return { s with
      matchExpressions := ← v.decodeOption (Source.decodeList LabelRequirement.decode) }
  | "matchLabels" =>
    return { s with matchLabels := ← v.decodeOption (Source.decodeMap Source.decodeString) }
  | _ => return s

def decode : Source → Decoded LabelSelector := Source.decodeMembers "LabelSelector" member {}

end LabelSelector

namespace Amount

def encode : Amount → Json
  | count n => .int n
  | text s => .str s

def decode (v : Source) : Decoded Amount :=
  match v.node with
  | .num (.int _) => (v.decodeInt (-2147483648) 2147483647 "a 32-bit integer").map count
  | .str s => .ok (text s)
  | _ => v.unexpected "enum IntOrString"

end Amount

namespace RollingUpdate

def encode (u : RollingUpdate) : Json :=
  .ofMembers
    [("maxSurge", u.maxSurge.map Amount.encode),
     ("maxUnavailable", u.maxUnavailable.map Amount.encode)]

def member (u : RollingUpdate) (name : String) (v : Source) : Decoded RollingUpdate :=
  match name with
  | "maxSurge" => return { u with maxSurge := ← v.decodeOption Amount.decode }
  | "maxUnavailable" => return { u with maxUnavailable := ← v.decodeOption Amount.decode }
  | _ => return u

def decode : Source → Decoded RollingUpdate :=
  Source.decodeMembers "RollingUpdateDeployment" member {}

end RollingUpdate

namespace DeploymentStrategy

def encode (s : DeploymentStrategy) : Json :=
  .ofMembers
    [("rollingUpdate", s.rollingUpdate.map RollingUpdate.encode),
     ("type", s.type.map .str)]

def member (s : DeploymentStrategy) (name : String) (v : Source) : Decoded DeploymentStrategy :=
  match name with
  | "rollingUpdate" => return { s with rollingUpdate := ← v.decodeOption RollingUpdate.decode }
  | "type" => return { s with type := ← v.decodeOption Source.decodeString }
  | _ => return s

def decode : Source → Decoded DeploymentStrategy :=
  Source.decodeMembers "DeploymentStrategy" member {}

end DeploymentStrategy

namespace DeploymentSpec

def encode (s : DeploymentSpec) : Json :=
  .ofMembers
    [("minReadySeconds", s.minReadySeconds.map .int),
     ("paused", s.paused.map .bool),
     ("progressDeadlineSeconds", s.progressDeadlineSeconds.map .int),
     ("replicas", s.replicas.map .int),
     ("revisionHistoryLimit", s.revisionHistoryLimit.map .int),
     ("selector", some s.selector.encode),
     ("strategy", s.strategy.map DeploymentStrategy.encode),
     ("template", some s.template.encode)]

def member (s : DeploymentSpec) (name : String) (v : Source) : Decoded DeploymentSpec :=
  match name with
  | "minReadySeconds" => return { s with minReadySeconds := ← v.decodeOption Source.decodeInt32 }
  | "paused" => return { s with paused := ← v.decodeOption Source.decodeBool }
  | "progressDeadlineSeconds" =>
    return { s with progressDeadlineSeconds := ← v.decodeOption Source.decodeInt32 }
  | "replicas" => return { s with replicas := ← v.decodeOption Source.decodeInt32 }
  | "revisionHistoryLimit" =>
    return { s with revisionHistoryLimit := ← v.decodeOption Source.decodeInt32 }
  | "strategy" => return { s with strategy := ← v.decodeOption DeploymentStrategy.decode }
  | "selector" => return { s with selector := (← v.decodeOption LabelSelector.decode).getD {} }
  | "template" => return { s with template := (← v.decodeOption PodTemplate.decode).getD {} }
  | _ => return s

def decode : Source → Decoded DeploymentSpec := Source.decodeMembers "DeploymentSpec" member {}

end DeploymentSpec

namespace DeploymentCondition

def encode (c : DeploymentCondition) : Json :=
  .ofMembers
    [("lastTransitionTime", c.lastTransitionTime.map .ofTime),
     ("lastUpdateTime", c.lastUpdateTime.map .ofTime),
     ("message", c.message.map .str),
     ("reason", c.reason.map .str),
     ("status", some (.str c.status)),
     ("type", some (.str c.type))]

def member (c : DeploymentCondition) (name : String) (v : Source) : Decoded DeploymentCondition :=
  match name with
  | "lastTransitionTime" => return { c with lastTransitionTime := ← v.decodeOption Source.decodeTime }
  | "lastUpdateTime" => return { c with lastUpdateTime := ← v.decodeOption Source.decodeTime }
  | "message" => return { c with message := ← v.decodeOption Source.decodeString }
  | "reason" => return { c with reason := ← v.decodeOption Source.decodeString }
  | "status" => return { c with status := (← v.decodeOption Source.decodeString).getD "" }
  | "type" => return { c with type := (← v.decodeOption Source.decodeString).getD "" }
  | _ => return c

def decode : Source → Decoded DeploymentCondition :=
  Source.decodeMembers "DeploymentCondition" member {}

end DeploymentCondition

namespace DeploymentStatus

def encode (s : DeploymentStatus) : Json :=
  .ofMembers
    [("availableReplicas", s.availableReplicas.map .int),
     ("collisionCount", s.collisionCount.map .int),
     ("conditions", s.conditions.map fun l => .arr (l.map DeploymentCondition.encode)),
     ("observedGeneration", s.observedGeneration.map .int),
     ("readyReplicas", s.readyReplicas.map .int),
     ("replicas", s.replicas.map .int),
     ("unavailableReplicas", s.unavailableReplicas.map .int),
     ("updatedReplicas", s.updatedReplicas.map .int)]

def member (s : DeploymentStatus) (name : String) (v : Source) : Decoded DeploymentStatus :=
  match name with
  | "availableReplicas" => return { s with availableReplicas := ← v.decodeOption Source.decodeInt32 }
  | "collisionCount" => return { s with collisionCount := ← v.decodeOption Source.decodeInt32 }
  | "conditions" =>
    return { s with conditions := ← v.decodeOption (Source.decodeList DeploymentCondition.decode) }
  | "observedGeneration" =>
    return { s with observedGeneration := ← v.decodeOption Source.decodeInt64 }
  | "readyReplicas" => return { s with readyReplicas := ← v.decodeOption Source.decodeInt32 }
  | "replicas" => return { s with replicas := ← v.decodeOption Source.decodeInt32 }
  | "unavailableReplicas" =>
    return { s with unavailableReplicas := ← v.decodeOption Source.decodeInt32 }
  | "updatedReplicas" => return { s with updatedReplicas := ← v.decodeOption Source.decodeInt32 }
  | _ => return s

def decode : Source → Decoded DeploymentStatus := Source.decodeMembers "DeploymentStatus" member {}

end DeploymentStatus

namespace Deployment

def encode (d : Deployment) : Json :=
  .ofMembers
    [("apiVersion", some (.str "apps/v1")),
     ("kind", some (.str "Deployment")),
     ("metadata", some d.metadata.encode),
     ("spec", d.spec.map DeploymentSpec.encode),
     ("status", d.status.map DeploymentStatus.encode)]

def member (d : Deployment) (name : String) (v : Source) : Decoded Deployment :=
  match name with
  | "apiVersion" => do v.decodeExactly "apps/v1"; return d
  | "kind" => do v.decodeExactly "Deployment"; return d
  | "metadata" => return { d with metadata := (← v.decodeOption Metadata.decode).getD {} }
  | "spec" => return { d with spec := ← v.decodeOption DeploymentSpec.decode }
  | "status" => return { d with status := ← v.decodeOption DeploymentStatus.decode }
  | _ => return d

def decode : Source → Decoded Deployment := Source.decodeMembers "Deployment" member {}

instance : Resource Deployment where
  kind := "Deployment"
  group := "apps"
  version := "v1"
  plural := "deployments"
  namespaced := true
  metadata := Deployment.metadata
  setMetadata d m := { d with metadata := m }
  encode := encode
  decode := decode

/-- The image of the first container. -/
def firstImage (d : Deployment) : Option String := do
  let spec ← d.spec
  let pod ← spec.template.spec
  let container ← pod.containers.head?
  container.image

end Deployment

end ControlLoop
