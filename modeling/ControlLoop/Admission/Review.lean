import ControlLoop.Json.Document
import ControlLoop.Json.Patch
import ControlLoop.Json.Printer
import ControlLoop.Resource.Metadata
import ControlLoop.Text.Base64
/-!
# Admission reviews

Before a change of an object is accepted, those who may object are sent a review with a request, and
they send one back with a response. A response may carry a patch of the object, written as text in
base 64.
-/
namespace ControlLoop.Admission

/-- A kind of object. -/
structure GroupKind where
  group : String := ""
  version : String
  kind : String
  deriving DecidableEq, Repr

/-- A collection of objects. -/
structure GroupResource where
  group : String := ""
  version : String
  resource : String
  deriving DecidableEq, Repr

/-- What is to be done. -/
inductive Operation where
  | create
  | update
  | delete
  | connect
  deriving DecidableEq, Repr

/-- Who asks for it. -/
structure User where
  username : Option String := none
  uid : Option String := none
  groups : Option (List String) := none
  deriving DecidableEq, Repr

/-- A change that is to be decided. -/
structure Request where
  uid : String
  kind : GroupKind
  resource : GroupResource
  operation : Operation
  object : Option Json := none
  oldObject : Option Json := none
  ns : Option String := none
  name : Option String := none
  user : User := {}
  dryRun : Option Bool := none
  deriving DecidableEq, Repr

/-- The reason for a decision. -/
structure Status where
  code : Option Nat := none
  text : Option String := none
  deriving DecidableEq, Repr

/-- A decision. -/
structure Response where
  uid : String
  allowed : Bool
  status : Option Status := none
  patch : Option String := none
  patchType : Option String := none
  deriving DecidableEq, Repr

def apiVersion : String := "admission.k8s.io/v1"

def reviewKind : String := "AdmissionReview"

/-- A review, on its way there or back. -/
structure Review where
  apiVersion : String := Admission.apiVersion
  kind : String := reviewKind
  request : Option Request := none
  response : Option Response := none
  deriving DecidableEq, Repr

/-! ## Kinds and collections -/

namespace GroupKind

def encode (k : GroupKind) : Json :=
  .obj [("group", .str k.group), ("version", .str k.version), ("kind", .str k.kind)]

/-- The members met so far. -/
structure Gathered where
  group : String := ""
  version : Option String := none
  kind : Option String := none

def member (g : Gathered) (name : String) (v : Source) : Decoded Gathered :=
  match name with
  | "group" => return { g with group := ← v.decodeString }
  | "version" => return { g with version := some (← v.decodeString) }
  | "kind" => return { g with kind := some (← v.decodeString) }
  | _ => return g

def decode (v : Source) : Decoded GroupKind := do
  let g ← Source.decodeSpared "AdmissionKind" ["group", "version", "kind"] ["group"] member {} v
  return {
    group := g.group
    version := ← Source.require "version" g.version
    kind := ← Source.require "kind" g.kind }

end GroupKind

namespace GroupResource

def encode (r : GroupResource) : Json :=
  .obj [("group", .str r.group), ("version", .str r.version), ("resource", .str r.resource)]

/-- The members met so far. -/
structure Gathered where
  group : String := ""
  version : Option String := none
  resource : Option String := none

def member (g : Gathered) (name : String) (v : Source) : Decoded Gathered :=
  match name with
  | "group" => return { g with group := ← v.decodeString }
  | "version" => return { g with version := some (← v.decodeString) }
  | "resource" => return { g with resource := some (← v.decodeString) }
  | _ => return g

def decode (v : Source) : Decoded GroupResource := do
  let fields := ["group", "version", "resource"]
  let g ← Source.decodeSpared "AdmissionResource" fields ["group"] member {} v
  return {
    group := g.group
    version := ← Source.require "version" g.version
    resource := ← Source.require "resource" g.resource }

end GroupResource

/-! ## Operations -/

namespace Operation

def text : Operation → String
  | create => "CREATE"
  | update => "UPDATE"
  | delete => "DELETE"
  | connect => "CONNECT"

def all : List Operation := [create, update, delete, connect]

def encode (o : Operation) : Json := .str o.text

def decode : Source → Decoded Operation := Source.decodeVariant (all.map fun o => (o.text, o))

end Operation

/-! ## Users -/

namespace User

def encode (u : User) : Json :=
  .ofMembers
    [("username", u.username.map .str), ("uid", u.uid.map .str), ("groups", u.groups.map Json.ofStrings)]

def member (u : User) (name : String) (v : Source) : Decoded User :=
  match name with
  | "username" => return { u with username := ← v.decodeOption Source.decodeString }
  | "uid" => return { u with uid := ← v.decodeOption Source.decodeString }
  | "groups" => return { u with groups := ← v.decodeOption (Source.decodeList Source.decodeString) }
  | _ => return u

def fields : List String := ["username", "uid", "groups"]

def decode : Source → Decoded User := Source.decodeSpared "UserInfo" fields fields member {}

end User

/-! ## Requests -/

namespace Request

def encode (r : Request) : Json :=
  .ofMembers
    [("uid", some (.str r.uid)),
     ("kind", some r.kind.encode),
     ("resource", some r.resource.encode),
     ("operation", some r.operation.encode),
     ("object", r.object),
     ("oldObject", r.oldObject),
     ("namespace", r.ns.map .str),
     ("name", r.name.map .str),
     ("userInfo", some r.user.encode),
     ("dryRun", r.dryRun.map .bool)]

/-- The members met so far. -/
structure Gathered where
  uid : Option String := none
  kind : Option GroupKind := none
  resource : Option GroupResource := none
  operation : Option Operation := none
  object : Option Json := none
  oldObject : Option Json := none
  ns : Option String := none
  name : Option String := none
  user : User := {}
  dryRun : Option Bool := none

def member (g : Gathered) (name : String) (v : Source) : Decoded Gathered :=
  match name with
  | "uid" => return { g with uid := some (← v.decodeString) }
  | "kind" => return { g with kind := some (← GroupKind.decode v) }
  | "resource" => return { g with resource := some (← GroupResource.decode v) }
  | "operation" => return { g with operation := some (← Operation.decode v) }
  | "object" => return { g with object := ← v.decodeOption Source.decodeDocument }
  | "oldObject" => return { g with oldObject := ← v.decodeOption Source.decodeDocument }
  | "namespace" => return { g with ns := ← v.decodeOption Source.decodeString }
  | "name" => return { g with name := ← v.decodeOption Source.decodeString }
  | "userInfo" => return { g with user := ← User.decode v }
  | "dryRun" => return { g with dryRun := ← v.decodeOption Source.decodeBool }
  | _ => return g

def required : List String := ["uid", "kind", "resource", "operation"]

/-- The fields that have a value of their own. -/
def spare : List String := ["object", "oldObject", "namespace", "name", "userInfo", "dryRun"]

def decode (v : Source) : Decoded Request := do
  let g ← Source.decodeSpared "AdmissionRequest" (required ++ spare) spare member {} v
  return {
    uid := ← Source.require "uid" g.uid
    kind := ← Source.require "kind" g.kind
    resource := ← Source.require "resource" g.resource
    operation := ← Source.require "operation" g.operation
    object := g.object
    oldObject := g.oldObject
    ns := g.ns
    name := g.name
    user := g.user
    dryRun := g.dryRun }

end Request

/-! ## Responses -/

namespace Status

def encode (s : Status) : Json :=
  .ofMembers [("code", s.code.map .nat), ("message", s.text.map .str)]

def member (s : Status) (name : String) (v : Source) : Decoded Status :=
  match name with
  | "code" => return { s with code := ← v.decodeOption Source.decodeNat16 }
  | "message" => return { s with text := ← v.decodeOption Source.decodeString }
  | _ => return s

def fields : List String := ["code", "message"]

def decode : Source → Decoded Status := Source.decodeSpared "AdmissionStatus" fields fields member {}

end Status

namespace Response

def allow (uid : String) : Response := { uid := uid, allowed := true }

def deny (uid : String) (code : Nat) (text : String) : Response :=
  { uid := uid, allowed := false, status := some { code := some code, text := some text } }

def encode (r : Response) : Json :=
  .ofMembers
    [("uid", some (.str r.uid)),
     ("allowed", some (.bool r.allowed)),
     ("status", r.status.map Status.encode),
     ("patch", r.patch.map .str),
     ("patchType", r.patchType.map .str)]

/-- The members met so far. -/
structure Gathered where
  uid : Option String := none
  allowed : Option Bool := none
  status : Option Status := none
  patch : Option String := none
  patchType : Option String := none

def member (g : Gathered) (name : String) (v : Source) : Decoded Gathered :=
  match name with
  | "uid" => return { g with uid := some (← v.decodeString) }
  | "allowed" => return { g with allowed := some (← v.decodeBool) }
  | "status" => return { g with status := ← v.decodeOption Status.decode }
  | "patch" => return { g with patch := ← v.decodeOption Source.decodeString }
  | "patchType" => return { g with patchType := ← v.decodeOption Source.decodeString }
  | _ => return g

def required : List String := ["uid", "allowed"]

/-- The fields that have a value of their own. -/
def spare : List String := ["status", "patch", "patchType"]

def decode (v : Source) : Decoded Response := do
  let g ← Source.decodeSpared "AdmissionResponse" (required ++ spare) spare member {} v
  return {
    uid := ← Source.require "uid" g.uid
    allowed := ← Source.require "allowed" g.allowed
    status := g.status
    patch := g.patch
    patchType := g.patchType }

def jsonPatchType : String := "JSONPatch"

/-- Attaches a patch; every patch has a text. -/
def withPatch (r : Response) (patch : JsonPatch) : Response :=
  { r with
    patch := some (Text.Base64.encode patch.encode.render.toUTF8.toList)
    patchType := some jsonPatchType }

/-- The attached patch, if there is one that can be read. -/
def decodedPatch (r : Response) : Option JsonPatch := do
  let octets ← (Text.Base64.decode (← r.patch)).toOption
  (Json.readOctets JsonPatch.decode ⟨octets.toArray⟩).toOption

end Response

/-! ## Reviews -/

namespace Review

def ofRequest (r : Request) : Review := { request := some r }

def ofResponse (r : Response) : Review := { response := some r }

def encode (r : Review) : Json :=
  .ofMembers
    [("apiVersion", some (.str r.apiVersion)),
     ("kind", some (.str r.kind)),
     ("request", r.request.map Request.encode),
     ("response", r.response.map Response.encode)]

def member (r : Review) (name : String) (v : Source) : Decoded Review :=
  match name with
  | "apiVersion" => return { r with apiVersion := ← v.decodeString }
  | "kind" => return { r with kind := ← v.decodeString }
  | "request" => return { r with request := ← v.decodeOption Request.decode }
  | "response" => return { r with response := ← v.decodeOption Response.decode }
  | _ => return r

def fields : List String := ["apiVersion", "kind", "request", "response"]

def decode : Source → Decoded Review :=
  Source.decodeSpared "AdmissionReview" fields ["apiVersion", "kind"] member {}

end Review

end ControlLoop.Admission
