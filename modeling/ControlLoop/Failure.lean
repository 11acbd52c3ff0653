import ControlLoop.Cluster.Basic
import ControlLoop.Text.Quoted
/-!
# Failures outside a single run

The ways in which a remote interface and the whole program fail, and how they appear to a client.
-/
namespace ControlLoop

/-- The error document of a remote interface. -/
structure ApiStatus where
  status : String
  text : String
  reason : String
  code : Nat
  deriving DecidableEq, Repr

namespace ApiStatus

/-- The document with the names of its fields. -/
def display (s : ApiStatus) : String :=
  "ErrorResponse \x7b status: " ++ Text.quoted s.status ++ ", message: " ++ Text.quoted s.text ++
    ", reason: " ++ Text.quoted s.reason ++ ", code: " ++ toString s.code ++ " \x7d"

end ApiStatus

/-- Why a request to a remote interface failed. -/
inductive ApiError where
  /-- The interface refused it. -/
  | refused (status : ApiStatus)
  /-- Its answer could not be read. -/
  | unreadable (text : String)
  /-- It could not be carried out. -/
  | failed (text : String)
  deriving DecidableEq, Repr

namespace ApiError

def message : ApiError → String
  | refused s => s!"ApiError: {s.text}: {s.reason} ({s.display})"
  | unreadable text => s!"Error deserializing response: {text}"
  | failed text => text

/-- What a client of the collection is told. -/
def toClientError : ApiError → ClientError
  | refused s =>
    match s.code with
    | 404 => .notFound "resource" s.text
    | 409 => .conflict s.reason s.text
    | 410 => .gone s.text
    | 400 => .invalid s.text
    | 422 => .invalid s.text
    | code => .transient s!"{s.text} ({code})"
  | unreadable text => .invalid text
  | failed text => .transient text

end ApiError

/-- Why the program or one of its parts could not be set up or run. -/
inductive Failure where
  | api (error : ApiError)
  | client (error : ClientError)
  | serialization (text : String)
  | invalidConfig (text : String)
  /-- Two controllers for one kind of object. -/
  | duplicateResource (name : String)
  | duplicatePath (path : String)
  | server (text : String)
  | io (text : String)
  deriving DecidableEq, Repr

namespace Failure

def message : Failure → String
  | api e => s!"Kubernetes API error: {e.message}"
  | client e => s!"Resource client error: {e.message}"
  | serialization text => s!"Serialization error: {text}"
  | invalidConfig text => s!"Invalid configuration: {text}"
  | duplicateResource name => s!"Resource type {name} is already registered"
  | duplicatePath path => s!"Webhook path {path} is already registered"
  | server text => s!"HTTP server error: {text}"
  | io text => s!"I/O error: {text}"

end Failure

end ControlLoop
