import ControlLoop.Failure
import ControlLoop.Json.Printer
import ControlLoop.Text.Integer
/-!
# Requests to an API server

A collection has a path, an object in it a longer one. Parameters follow in a query, written as in a
form. Some requests are refused before they are sent.
-/
namespace ControlLoop.Api

/-! ## Forms -/

namespace Form

/-- Whether an octet stands for itself. -/
def isPlain (b : UInt8) : Bool :=
  let n := b.toNat
  (48 ≤ n && n ≤ 57) || (65 ≤ n && n ≤ 90) || (97 ≤ n && n ≤ 122) ||
    n == 42 || n == 45 || n == 46 || n == 95

/-- An octet in a form: itself, a plus sign for a blank, or its value in hexadecimal. -/
def octet (b : UInt8) : String :=
  if isPlain b then String.singleton (Char.ofNat b.toNat)
  else if b.toNat = 32 then "+"
  else "%" ++ (Text.hex 2 b.toNat).toUpper

def encode (s : String) : String := String.join (s.toUTF8.toList.map octet)

/-- Parameters, each with a mark in front. -/
def query (parameters : List (String × String)) : String :=
  String.join (parameters.map fun p => "&" ++ encode p.1 ++ "=" ++ encode p.2)

end Form

/-! ## Requests -/

/-- A request. -/
structure Request where
  method : String
  /-- The path and the query. -/
  target : String
  contentType : Option String := none
  body : String := ""
  deriving DecidableEq, Repr

/-- Why a request was not sent. -/
inductive Refusal where
  | emptyName
  /-- The name of the manager of fields is too long for the parameters of that name. -/
  | managerTooLong (parameters : String)
  /-- The target has a character that no target may have. -/
  | badTarget
  | longTarget
  deriving DecidableEq, Repr

def Refusal.message : Refusal → String
  | .emptyName => "failed to validate request: A non-empty name is required"
  | .managerTooLong parameters =>
    s!"failed to validate request: Failed to validate {parameters}::field_manager!"
  | .badTarget => "failed to build request: invalid uri character"
  | .longTarget => "failed to build request: uri too long"

/-- How a refusal is reported. -/
def Refusal.error (r : Refusal) : ApiError := .failed s!"Failed to build request: {r.message}"

/-! ## Targets -/

namespace Target

/-- Whether a character is neither blank nor a control character. -/
def isVisible (c : Char) : Bool := ' ' < c && c.toNat != 127

/-- Characters in front of the query that need no encoding. -/
def isPathChar (c : Char) : Bool := isVisible c && c != '<' && c != '>' && c.toNat != 96

def isQueryChar (c : Char) : Bool := isVisible c && c != '"' && c != '<' && c != '>'

/-- How many octets a target may have. -/
def sizeLimit : Nat := 65534

/-- A target as it is sent: without what follows a number sign. -/
def read (text : String) : Except Refusal String :=
  let sent := text.toList.takeWhile (· ≠ '#')
  let path := sent.takeWhile (· ≠ '?')
  let query := (sent.dropWhile (· ≠ '?')).drop 1
  if sizeLimit < text.utf8ByteSize then .error .longTarget
  else if path.all isPathChar && query.all isQueryChar then .ok (String.ofList sent)
  else .error .badTarget

end Target

/-- The path of the collection of `α`. Objects that belong to no namespace have one path. -/
def collectionPath (α : Type) [Resource α] (ns : Option String) : String :=
  let root := if Resource.group α = "" then "/api/" else "/apis/"
  let scope := match ns with
    | some ns => if Resource.namespaced α then "namespaces/" ++ ns ++ "/" else ""
    | none => ""
  root ++ Resource.apiVersion α ++ "/" ++ scope ++ Resource.plural α

def jsonType : String := "application/json"

def mergePatchType : String := "application/merge-patch+json"

/-- How many octets the name of a manager of fields may have. -/
def managerLimit : Nat := 128

def checkName (name : String) : Except Refusal Unit :=
  if name = "" then .error .emptyName else .ok ()

def checkManager (parameters manager : String) : Except Refusal Unit :=
  if managerLimit < manager.utf8ByteSize then .error (.managerTooLong parameters) else .ok ()

def managed (manager : String) : String := "?" ++ Form.query [("fieldManager", manager)]

namespace Request

/-- A request without a body. -/
def read (target : String) : Except Refusal Request := do
  return { method := "GET", target := ← Target.read target }

/-- A request with a document. -/
def write (method target contentType : String) (body : Json) : Except Refusal Request := do
  return {
    method := method
    target := ← Target.read target
    contentType := some contentType
    body := body.render }

section

variable (α : Type) [Resource α] (ns : Option String)

def list : Except Refusal Request := read (collectionPath α ns ++ "?")

def get (name : String) : Except Refusal Request := do
  checkName name
  read (collectionPath α ns ++ "/" ++ name)

/-- How long the server may keep a watch open, in seconds. -/
def watchTimeout : Nat := 290

def watch (version : String) : Except Refusal Request :=
  read (collectionPath α ns ++ "?" ++ Form.query
    [("watch", "true"), ("timeoutSeconds", toString watchTimeout), ("allowWatchBookmarks", "true"),
      ("resourceVersion", version)])

def patch (manager name : String) (patch : Json) : Except Refusal Request := do
  checkName name
  checkManager "PatchParams" manager
  write "PATCH" (collectionPath α ns ++ "/" ++ name ++ managed manager) mergePatchType patch

/-- A change of the status alone, if wanted only of a given version. -/
def updateStatus (manager name : String) (status : Json) (version : Option String) :
    Except Refusal Request := do
  checkName name
  checkManager "PatchParams" manager
  let condition := version.map fun v => Json.obj [("resourceVersion", .str v)]
  write "PATCH" (collectionPath α ns ++ "/" ++ name ++ "/status" ++ managed manager) mergePatchType
    (.ofMembers [("metadata", condition), ("status", some status)])

def delete (name : String) : Except Refusal Request := do
  checkName name
  write "DELETE" (collectionPath α ns ++ "/" ++ name ++ "?") jsonType (.obj [])

end

section

variable {α : Type} [Resource α] (ns : Option String)

def create (manager : String) (a : α) : Except Refusal Request := do
  checkManager "PostParams" manager
  write "POST" (collectionPath α ns ++ managed manager) jsonType (Resource.encode a)

def update (manager name : String) (a : α) : Except Refusal Request := do
  checkName name
  write "PUT" (collectionPath α ns ++ "/" ++ name ++ managed manager) jsonType (Resource.encode a)

end

end Request

end ControlLoop.Api
