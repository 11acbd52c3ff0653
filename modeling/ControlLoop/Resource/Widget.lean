import ControlLoop.Resource.Basic
import ControlLoop.Resource.Condition
/-!
# Widgets

A widget asks for a number of replicas of an image. Its status says how far that has come.
-/
namespace ControlLoop

/-- What is asked for. -/
structure WidgetSpec where
  replicas : Int
  image : Option String := none
  deriving DecidableEq, Repr

/-- What has been observed. -/
structure WidgetStatus where
  phase : Option String := none
  observedGeneration : Option Int := none
  conditions : Option (List Condition) := none
  deriving DecidableEq, Repr

/-- A widget. -/
structure Widget where
  metadata : Metadata
  spec : WidgetSpec
  status : Option WidgetStatus := none
  deriving DecidableEq, Repr

namespace WidgetSpec

def encode (s : WidgetSpec) : Json :=
  .ofMembers [("replicas", some (.int s.replicas)), ("image", s.image.map .str)]

/-- The members met so far. -/
structure Gathered where
  replicas : Option Int := none
  image : Option String := none

def member (g : Gathered) (name : String) (v : Source) : Decoded Gathered :=
  match name with
  | "replicas" => return { g with replicas := some (← v.decodeInt32) }
  | "image" => return { g with image := ← v.decodeOption Source.decodeString }
  | _ => return g

def decode (v : Source) : Decoded WidgetSpec := do
  let g ← Source.decodeRecord "WidgetSpec" ["replicas", "image"] member {} v
  return { replicas := ← Source.require "replicas" g.replicas, image := g.image }

end WidgetSpec

namespace WidgetStatus

def encode (s : WidgetStatus) : Json :=
  .ofMembers
    [("phase", s.phase.map .str),
     ("observedGeneration", s.observedGeneration.map .int),
     ("conditions", s.conditions.map fun l => .arr (l.map Condition.encode))]

def member (s : WidgetStatus) (name : String) (v : Source) : Decoded WidgetStatus :=
  match name with
  | "phase" => return { s with phase := ← v.decodeOption Source.decodeString }
  | "observedGeneration" => return { s with observedGeneration := ← v.decodeOption Source.decodeInt64 }
  | "conditions" =>
    return { s with conditions := ← v.decodeOption (Source.decodeList Condition.decode) }
  | _ => return s

def decode : Source → Decoded WidgetStatus :=
  Source.decodeRecord "WidgetStatus" ["phase", "observedGeneration", "conditions"] member {}

end WidgetStatus

namespace Widget

def kind : String := "Widget"

def group : String := "example.com"

def version : String := "v1"

def encode (w : Widget) : Json :=
  .ofMembers
    [("apiVersion", some (.str (group ++ "/" ++ version))),
     ("kind", some (.str kind)),
     ("metadata", some w.metadata.encode),
     ("spec", some w.spec.encode),
     ("status", w.status.map WidgetStatus.encode)]

/-- The members met so far. -/
structure Gathered where
  metadata : Option Metadata := none
  spec : Option WidgetSpec := none
  status : Option WidgetStatus := none

def member (g : Gathered) (name : String) (v : Source) : Decoded Gathered :=
  match name with
  | "metadata" => return { g with metadata := some (← Metadata.decode v) }
  | "spec" => return { g with spec := some (← WidgetSpec.decode v) }
  | "status" => return { g with status := ← v.decodeOption WidgetStatus.decode }
  | _ => return g

def decode (v : Source) : Decoded Widget := do
  let g ← Source.decodeRecord "Widget" ["metadata", "spec", "status"] member {} v
  return {
    metadata := ← Source.require "metadata" g.metadata
    spec := ← Source.require "spec" g.spec
    status := g.status }

instance : Resource Widget where
  kind := kind
  group := group
  version := version
  plural := "widgets"
  namespaced := true
  metadata := Widget.metadata
  setMetadata w m := { w with metadata := m }
  encode := encode
  decode := decode

/-- The image that runs where none is asked for. -/
def defaultImage : String := "nginx:1.27"

def image (w : Widget) : String := w.spec.image.getD defaultImage

/-- The name of the deployment that runs the widget. -/
def deploymentName (w : Widget) : String := w.metadata.displayName ++ "-widget"

/-- The type of the condition that says whether the widget runs. -/
def readyType : String := "Ready"

/-- Whether some condition says that the widget runs. -/
def isReady (w : Widget) : Bool :=
  ((w.status.bind WidgetStatus.conditions).getD []).any fun c => c.type == readyType && c.isTrue

/-- Whether the status speaks of the present generation. -/
def isObserved (w : Widget) : Bool :=
  match w.status.bind WidgetStatus.observedGeneration with
  | none => false
  | some g => w.metadata.generation = some g

end Widget

end ControlLoop
