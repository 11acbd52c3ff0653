import ControlLoop.Client
import ControlLoop.Failure
import ControlLoop.Json.Document
import ControlLoop.Resource.ConfigMap
/-!
# Answers of an API server

How the answers to requests are read: objects, lists, the outcome of a removal, and the lines of a
watch. A refusal comes as a document of its own; where it cannot be read, its text is kept.
-/
namespace ControlLoop

namespace ApiStatus

/-- The members met so far. -/
structure Gathered where
  status : Option String := none
  text : String := ""
  reason : String := ""
  code : Option Nat := none

def member (g : Gathered) (name : String) (v : Source) : Decoded Gathered :=
  match name with
  | "status" => return { g with status := some (← v.decodeString) }
  | "message" => return { g with text := ← v.decodeString }
  | "reason" => return { g with reason := ← v.decodeString }
  | "code" => return { g with code := some (← v.decodeNat16) }
  | _ => return g

def fields : List String := ["status", "message", "reason", "code"]

def decode (v : Source) : Decoded ApiStatus := do
  let g ← Source.decodeSpared "ErrorResponse" fields ["message", "reason"] member {} v
  return {
    status := ← Source.require "status" g.status
    text := g.text
    reason := g.reason
    code := ← Source.require "code" g.code }

end ApiStatus

namespace Api

/-- An answer over HTTP. -/
structure Answer where
  status : Nat := 200
  body : String
  deriving DecidableEq, Repr

/-- The error that an answer stands for, if its status says that there is one. -/
def Answer.error? (a : Answer) : Option ApiStatus :=
  if 400 ≤ a.status ∧ a.status < 600 then
    match Json.readDocument ApiStatus.decode a.body with
    | .ok s => some s
    | .error _ => some {
        status := toString a.status
        text := Text.quoted a.body
        reason := "Failed to parse error data"
        code := a.status }
  else none

/-- Reads an answer that must not be an error. -/
def Answer.read {α : Type} (a : Answer) (decode : Source → Decoded α) : Except ApiError α :=
  match a.error? with
  | some s => .error (.refused s)
  | none =>
    match Json.readDocument decode a.body with
    | .ok v => .ok v
    | .error e => .error (.unreadable e.message)

/-! ## Lists -/

/-- The metadata of a list, of which the version is kept. -/
structure ListMeta where
  version : Option String := none
  deriving DecidableEq, Repr

namespace ListMeta

def member (m : ListMeta) (name : String) (v : Source) : Decoded ListMeta :=
  match name with
  | "continue" => do let _ ← v.decodeOption Source.decodeString; return m
  | "remainingItemCount" => do let _ ← v.decodeOption Source.decodeInt64; return m
  | "resourceVersion" => return { m with version := ← v.decodeOption Source.decodeString }
  | "selfLink" => do let _ ← v.decodeOption Source.decodeString; return m
  | _ => return m

def decode : Source → Decoded ListMeta := Source.decodeMembers "ListMeta" member {}

end ListMeta

section

variable {α : Type}

/-- What has been met of a list. -/
structure ListGathered (α : Type) where
  metadata : ListMeta := {}
  items : Option (List α) := none

/-- The known members of a list, and the others, which have to be readable. -/
def listMember (decode : Source → Decoded α) (g : List String × ListGathered α) (name : String)
    (v : Source) : Decoded (List String × ListGathered α) :=
  let step (g : ListGathered α) (name : String) (v : Source) : Decoded (ListGathered α) :=
    match name with
    | "metadata" => return { g with metadata := ← ListMeta.decode v }
    | _ => return { g with items := some ((← v.decodeOption (Source.decodeList decode)).getD []) }
  if name = "metadata" ∨ name = "items" then Source.once ["metadata", "items"] step g name v
  else do
    let _ ← v.putAside
    return g

/-- A list of objects and the version at which it was read. -/
def decodeListing [Resource α] (v : Source) : Decoded (Listing α) := do
  let g ← v.decodeMembers "struct ObjectList" (listMember Resource.decode) ([], {})
  return ⟨← Source.require "items" g.2.items, g.2.metadata.version.getD ""⟩

end

/-! ## Removals -/

/-- Checks a text field. -/
def checkText (v : Source) : Decoded Unit := do let _ ← v.decodeString

def checkCause (_ : Unit) (name : String) (v : Source) : Decoded Unit :=
  match name with
  | "reason" => checkText v
  | "message" => checkText v
  | "field" => checkText v
  | _ => return ()

def checkCauses (v : Source) : Decoded Unit := do
  let fields := ["reason", "message", "field"]
  let _ ← v.decodeList (Source.decodeSpared "StatusCause" fields fields checkCause ())

def checkDetail (_ : Unit) (name : String) (v : Source) : Decoded Unit :=
  match name with
  | "name" => checkText v
  | "group" => checkText v
  | "kind" => checkText v
  | "uid" => checkText v
  | "causes" => checkCauses v
  | "retryAfterSeconds" => do let _ ← v.decodeInt 0 Text.word32Max "u32"
  | _ => return ()

def checkDetails (v : Source) : Decoded Unit :=
  let fields := ["name", "group", "kind", "uid", "causes", "retryAfterSeconds"]
  Source.decodeSpared "StatusDetails" fields fields checkDetail () v

/-- Success or failure, by name. -/
def checkSummary : Source → Decoded Unit :=
  Source.decodeVariant [("Success", ()), ("Failure", ())]

def checkOutcome (_ : Unit) (name : String) (v : Source) : Decoded Unit :=
  match name with
  | "status" => do let _ ← v.decodeOption checkSummary
  | "code" => do let _ ← v.decodeNat16
  | "message" => checkText v
  | "reason" => checkText v
  | "details" => do let _ ← v.decodeOption checkDetails
  | _ => return ()

/-- The status of a removal. -/
def checkStatus : Source → Decoded Unit :=
  let fields := ["status", "code", "message", "reason", "details"]
  Source.decodeSpared "Status" fields fields checkOutcome ()

/-- Whether a document calls itself a status. -/
def isStatus (v : Json) : Bool := v.get? "kind" = some (.str "Status")

/-- The outcome of a removal: a status, or the object that is being removed. -/
def decodeRemoval (α : Type) [Resource α] (v : Json) (s : Source) : Decoded Unit :=
  if isStatus v then checkStatus s
  else do
    let _ ← (Resource.decode s : Decoded α)

/-- Reads the answer to a removal. Its text is read as a whole before its type is looked at. -/
def Answer.readRemoval (α : Type) [Resource α] (a : Answer) : Except ApiError Unit :=
  match a.error? with
  | some s => .error (.refused s)
  | none =>
    let outcome : Decoded Unit := do
      let v ← Json.readDocument Source.decodeDocument a.body
      Json.readDocument (decodeRemoval α v) a.body
    outcome.mapError fun e => .unreadable e.message

/-! ## Watches -/

/-- The version in the metadata of a bookmark. -/
def bookmarkMetaMember (g : Option String) (name : String) (v : Source) : Decoded (Option String) :=
  match name with
  | "resourceVersion" => return some (← v.decodeString)
  | "annotations" => do let _ ← v.decodeMap Source.decodeString; return g
  | _ => return g

def decodeBookmarkMeta (v : Source) : Decoded String := do
  let fields := ["resourceVersion", "annotations"]
  let g ← Source.decodeSpared "BookmarkMeta" fields ["annotations"] bookmarkMetaMember none v
  Source.require "resourceVersion" g

/-- What has been met of a bookmark: its version, and the members that tell its type, in reverse. -/
structure BookmarkParts where
  version : Option String := none
  others : List (String × Json.Node) := []

def BookmarkParts.member (p : BookmarkParts) (name : String) (v : Source) : Decoded BookmarkParts :=
  if name = "metadata" then
    match p.version with
    | some _ => .error (.duplicateField "metadata")
    | none => return { p with version := some (← decodeBookmarkMeta v) }
  else return { p with others := (name, (← v.putAside).node) :: p.others }

/-- The type of an object, which must be given. -/
def typeMember (g : Option String × Option String) (name : String) (v : Source) :
    Decoded (Option String × Option String) :=
  match name with
  | "apiVersion" => return (some (← v.decodeString), g.2)
  | "kind" => return (g.1, some (← v.decodeString))
  | _ => return g

/-- The version of a bookmark. Its metadata is looked at before its type. -/
def decodeBookmark (v : Source) : Decoded String := do
  let parts ← v.decodeMembers "struct Bookmark" BookmarkParts.member {}
  let version ← Source.require "metadata" parts.version
  let others : Source := ⟨.aside, .obj parts.others.reverse none⟩
  let types ← Source.decodeRecord "TypeMeta" ["apiVersion", "kind"] typeMember (none, none) others
  let _ ← Source.require "apiVersion" types.1
  let _ ← Source.require "kind" types.2
  return version

/-- The names of the events of a watch. -/
inductive EventName where
  | added
  | modified
  | deleted
  | bookmark
  | error
  deriving DecidableEq, Repr

namespace EventName

def text : EventName → String
  | added => "ADDED"
  | modified => "MODIFIED"
  | deleted => "DELETED"
  | bookmark => "BOOKMARK"
  | error => "ERROR"

def all : List EventName := [added, modified, deleted, bookmark, error]

def named : List (String × EventName) := all.map fun n => (n.text, n)

end EventName

section

variable {α : Type} [Resource α]

/-- The event of a name with its object. -/
def decodeEventObject (name : EventName) (v : Source) : Decoded (WatchEvent α) :=
  match name with
  | .added => return .added (← Resource.decode v)
  | .modified => return .modified (← Resource.decode v)
  | .deleted => return .deleted (← Resource.decode v)
  | .bookmark => return .bookmark (← decodeBookmark v)
  | .error => do
    let s ← ApiStatus.decode v
    return .error s.code s.text

/-- What has been met of an event. -/
inductive EventParts (α : Type) where
  | nothing
  | name (name : EventName)
  | object (object : Source)
  | event (event : WatchEvent α)

/-- Takes the name or the object, in either order. An object that comes first is put aside. -/
def EventParts.member (p : EventParts α) (name : String) (v : Source) : Decoded (EventParts α) :=
  if name = "type" then
    match p with
    | nothing => return .name (← v.decodeVariant EventName.named)
    | object o => return .event (← decodeEventObject (← v.decodeVariant EventName.named) o)
    | _ => .error (.duplicateField "type")
  else if name = "object" then
    match p with
    | nothing => return .object (← v.putAside)
    | .name n => return .event (← decodeEventObject n v)
    | _ => .error (.duplicateField "object")
  else return p

def EventParts.finish : EventParts α → Decoded (WatchEvent α)
  | nothing => .error (.missingField "type")
  | name _ => .error (.missingField "object")
  | object _ => .error (.missingField "type")
  | event e => .ok e

def eventShape : String := "adjacently tagged enum WatchEvent"

/-- An event of a watch: an object, or a list of its name and its object. -/
def decodeEvent (v : Source) : Decoded (WatchEvent α) :=
  match v.node with
  | .arr [] fault => do
    Source.endItems () fault
    .error (.invalidLength 0 eventShape)
  | .arr [a] fault => do
    let _ ← Source.decodeName EventName.named ⟨v.medium, a⟩
    Source.endItems () fault
    .error (.invalidLength 1 eventShape)
  | .arr (a :: b :: rest) fault => do
    let name ← Source.decodeName EventName.named ⟨v.medium, a⟩
    let e ← decodeEventObject name ⟨v.medium, b⟩
    Source.endList e v.medium 2 rest fault
  | _ => do (← v.decodeMembers eventShape EventParts.member .nothing).finish

/-- One line of a watch; a line that breaks off is skipped, and one that is an error document is that
error. -/
def readEventLine (line : String) : Option (Except ApiError (WatchEvent α)) :=
  match Json.readDocument decodeEvent line with
  | .ok e => some (.ok e)
  | .error e =>
    if e.isIncomplete then none
    else
      match Json.readDocument ApiStatus.decode line with
      | .ok s => some (.error (.refused s))
      | .error _ => some (.error (.unreadable e.message))

end

/-- A line without a carriage return at its end. -/
def withoutReturn (line : List Char) : List Char :=
  if line.getLast? = some '\r' then line.dropLast else line

/-- The lines of a text; the last one may lack its end. -/
def lines (text : String) : List String :=
  (text.splitOn "\n").map fun l => String.ofList (withoutReturn l.toList)

/-- Everything that an open watch delivers. -/
def Answer.events {α : Type} [Resource α] (a : Answer) : List (Except ApiError (WatchEvent α)) :=
  (lines a.body).filterMap readEventLine

end Api

end ControlLoop
