import ControlLoop.Resource.ConfigMap
/-!
# Events

An event is an object of its own that tells of something that happened to another object.
-/
namespace ControlLoop

/-- A reference to the object that an event is about. -/
structure ObjectReference where
  apiVersion : Option String := none
  fieldPath : Option String := none
  kind : Option String := none
  name : Option String := none
  ns : Option String := none
  resourceVersion : Option String := none
  uid : Option String := none
  deriving DecidableEq, Repr

/-- Who reports an event. -/
structure EventSource where
  component : Option String := none
  host : Option String := none
  deriving DecidableEq, Repr

/-- How often an event has come again. -/
structure EventSeries where
  count : Option Int := none
  lastObservedTime : Option MicroTimestamp := none
  deriving DecidableEq, Repr

/-- An event. -/
structure Event where
  action : Option String := none
  count : Option Int := none
  eventTime : Option MicroTimestamp := none
  firstTimestamp : Option Timestamp := none
  involvedObject : ObjectReference := {}
  lastTimestamp : Option Timestamp := none
  message : Option String := none
  metadata : Metadata := {}
  reason : Option String := none
  related : Option ObjectReference := none
  reportingComponent : Option String := none
  reportingInstance : Option String := none
  series : Option EventSeries := none
  source : Option EventSource := none
  type : Option String := none
  deriving DecidableEq, Repr

namespace ObjectReference

def encode (r : ObjectReference) : Json :=
  .ofMembers
    [("apiVersion", r.apiVersion.map .str),
     ("fieldPath", r.fieldPath.map .str),
     ("kind", r.kind.map .str),
     ("name", r.name.map .str),
     ("namespace", r.ns.map .str),
     ("resourceVersion", r.resourceVersion.map .str),
     ("uid", r.uid.map .str)]

def member (r : ObjectReference) (name : String) (v : Source) : Decoded ObjectReference :=
  match name with
  | "apiVersion" => return { r with apiVersion := ← v.decodeOption Source.decodeString }
  | "fieldPath" => return { r with fieldPath := ← v.decodeOption Source.decodeString }
  | "kind" => return { r with kind := ← v.decodeOption Source.decodeString }
  | "name" => return { r with name := ← v.decodeOption Source.decodeString }
  | "namespace" => return { r with ns := ← v.decodeOption Source.decodeString }
  | "resourceVersion" => return { r with resourceVersion := ← v.decodeOption Source.decodeString }
  | "uid" => return { r with uid := ← v.decodeOption Source.decodeString }
  | _ => return r

def decode : Source → Decoded ObjectReference := Source.decodeMembers "ObjectReference" member {}

/-- The reference to an object. -/
def ofObject {α : Type} [Resource α] (a : α) : ObjectReference where
  apiVersion := some (Resource.apiVersion α)
  kind := some (Resource.kind α)
  name := (Resource.metadata a).name
  ns := (Resource.metadata a).ns
  uid := (Resource.metadata a).uid

end ObjectReference

namespace EventSource

def encode (s : EventSource) : Json :=
  .ofMembers [("component", s.component.map .str), ("host", s.host.map .str)]

def member (s : EventSource) (name : String) (v : Source) : Decoded EventSource :=
  match name with
  | "component" => return { s with component := ← v.decodeOption Source.decodeString }
  | "host" => return { s with host := ← v.decodeOption Source.decodeString }
  | _ => return s

def decode : Source → Decoded EventSource := Source.decodeMembers "EventSource" member {}

end EventSource

namespace EventSeries

def encode (s : EventSeries) : Json :=
  .ofMembers
    [("count", s.count.map .int),
     ("lastObservedTime", s.lastObservedTime.map .ofMicroTime)]

def member (s : EventSeries) (name : String) (v : Source) : Decoded EventSeries :=
  match name with
  | "count" => return { s with count := ← v.decodeOption Source.decodeInt32 }
  | "lastObservedTime" => return { s with lastObservedTime := ← v.decodeOption Source.decodeMicroTime }
  | _ => return s

def decode : Source → Decoded EventSeries := Source.decodeMembers "EventSeries" member {}

end EventSeries

namespace Event

def encode (e : Event) : Json :=
  .ofMembers
    [("apiVersion", some (.str "v1")),
     ("kind", some (.str "Event")),
     ("action", e.action.map .str),
     ("count", e.count.map .int),
     ("eventTime", e.eventTime.map .ofMicroTime),
     ("firstTimestamp", e.firstTimestamp.map .ofTime),
     ("involvedObject", some e.involvedObject.encode),
     ("lastTimestamp", e.lastTimestamp.map .ofTime),
     ("message", e.message.map .str),
     ("metadata", some e.metadata.encode),
     ("reason", e.reason.map .str),
     ("related", e.related.map ObjectReference.encode),
     ("reportingComponent", e.reportingComponent.map .str),
     ("reportingInstance", e.reportingInstance.map .str),
     ("series", e.series.map EventSeries.encode),
     ("source", e.source.map EventSource.encode),
     ("type", e.type.map .str)]

def member (e : Event) (name : String) (v : Source) : Decoded Event :=
  match name with
  | "apiVersion" => do v.decodeExactly "v1"; return e
  | "kind" => do v.decodeExactly "Event"; return e
  | "action" => return { e with action := ← v.decodeOption Source.decodeString }
  | "count" => return { e with count := ← v.decodeOption Source.decodeInt32 }
  | "eventTime" => return { e with eventTime := ← v.decodeOption Source.decodeMicroTime }
  | "firstTimestamp" => return { e with firstTimestamp := ← v.decodeOption Source.decodeTime }
  | "involvedObject" =>
    return { e with involvedObject := (← v.decodeOption ObjectReference.decode).getD {} }
  | "lastTimestamp" => return { e with lastTimestamp := ← v.decodeOption Source.decodeTime }
  | "message" => return { e with message := ← v.decodeOption Source.decodeString }
  | "metadata" => return { e with metadata := (← v.decodeOption Metadata.decode).getD {} }
  | "reason" => return { e with reason := ← v.decodeOption Source.decodeString }
  | "related" => return { e with related := ← v.decodeOption ObjectReference.decode }
  | "reportingComponent" => return { e with reportingComponent := ← v.decodeOption Source.decodeString }
  | "reportingInstance" => return { e with reportingInstance := ← v.decodeOption Source.decodeString }
  | "series" => return { e with series := ← v.decodeOption EventSeries.decode }
  | "source" => return { e with source := ← v.decodeOption EventSource.decode }
  | "type" => return { e with type := ← v.decodeOption Source.decodeString }
  | _ => return e

def decode : Source → Decoded Event := Source.decodeMembers "Event" member {}

instance : Resource Event where
  kind := "Event"
  group := ""
  version := "v1"
  plural := "events"
  namespaced := true
  metadata := Event.metadata
  setMetadata e m := { e with metadata := m }
  encode := encode
  decode := decode

end Event

end ControlLoop
