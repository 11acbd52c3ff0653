import ControlLoop.Admission.Review
import ControlLoop.Failure
import ControlLoop.Http.Basic
/-!
# Deciding on admission

Handlers are registered under paths. A handler that validates gives a verdict; one that mutates may
add a patch. The server takes a review to the handler of its path and sends the decision back. It
never lets a change pass that no handler has allowed: a handler that fails denies.

Writing a patch or a review as JSON text is a total function here, so there is no branch for a patch that
cannot be written, which would be denied with code 500, and none for a review that cannot be written,
which would be answered with status 500 and `Failed to serialize response`. Neither can come about: the
members of both have texts for names, and their numbers are those of JSON.
-/
namespace ControlLoop.Admission

/-- Why there is no verdict. -/
inductive HandlerError where
  | invalidReview (text : String)
  | serialization (error : DecodeError)
  | handler (text : String)
  deriving DecidableEq, Repr

def HandlerError.message : HandlerError → String
  | .invalidReview text => s!"invalid admission review: {text}"
  | .serialization e => s!"serialization error: {e.message}"
  | .handler text => text

/-- A verdict on a change. -/
structure Verdict where
  allowed : Bool
  text : Option String := none
  deriving DecidableEq, Repr

namespace Verdict

def allow : Verdict := { allowed := true }

def deny (text : String) : Verdict := { allowed := false, text := some text }

end Verdict

/-- A verdict, and what is to be changed if the verdict allows it. -/
structure Mutation where
  verdict : Verdict
  patch : Option JsonPatch := none
  deriving DecidableEq, Repr

/-- Something that decides on changes. -/
inductive Handler where
  | validating (validate : Request → Except HandlerError Verdict)
  | mutating (mutate : Request → Except HandlerError Mutation)

/-- What a handler wants, whether it mutates or not. -/
def Handler.run (h : Handler) (r : Request) : Except HandlerError Mutation :=
  match h with
  | .validating validate => return { verdict := ← validate r }
  | .mutating mutate => mutate r

/-- The handlers by path, in the order in which they were registered. -/
structure Server where
  handlers : List (String × Handler) := []

/-- The response to a request whose handler ended that way. A patch that is allowed can always be
attached. -/
def respond (r : Request) : Except HandlerError Mutation → Response
  | .error e => .deny r.uid 500 e.message
  | .ok m =>
    if m.verdict.allowed then
      match m.patch with
      | some p => (Response.allow r.uid).withPatch p
      | none => .allow r.uid
    else .deny r.uid 403 (m.verdict.text.getD "")

namespace Server

/-- The handler registered under a path. -/
def handler? (s : Server) (path : String) : Option Handler :=
  (s.handlers.find? fun e => e.1 = path).map (·.2)

/-- Registers a handler, unless there is one under the path already. -/
def register (s : Server) (path : String) (h : Handler) : Except Failure Server :=
  if (s.handler? path).isSome then .error (.duplicatePath path)
  else .ok { handlers := s.handlers ++ [(path, h)] }

/-- Registers handlers one by one, and notes for each whether it was refused. -/
def registerEach (s : Server) : List (String × Handler) → List (Option Failure) × Server
  | [] => ([], s)
  | (path, h) :: rest =>
    match s.register path h with
    | .ok s =>
      let (notes, s) := s.registerEach rest
      (none :: notes, s)
    | .error e =>
      let (notes, s) := s.registerEach rest
      (some e :: notes, s)

/-- All paths in increasing order. -/
def paths (s : Server) : List String :=
  (s.handlers.map (·.1)).mergeSort fun a b => !decide (b < a)

/-- Takes a review to the handler of a path; nothing comes back if there is none. -/
def dispatch (s : Server) (path : String) (review : Review) : Option (Except HandlerError Review) := do
  let h ← s.handler? path
  match review.request with
  | none => return .error (.invalidReview "review carries no request")
  | some r => return .ok (.ofResponse (respond r (h.run r)))

/-- Reads a review from the body of a request. -/
def readReview (body : ByteArray) : Option Review := (Json.readOctets Review.decode body).toOption

/-- Answers requests over HTTP. The review that is sent back can always be written. -/
def route (s : Server) : Http.Router := fun r =>
  if r.method ≠ "POST" ∨ (s.handler? r.path).isNone then .notFound
  else
    match readReview r.body with
    | none => .text 400 "Invalid AdmissionReview format"
    | some review =>
      match s.dispatch r.path review with
      | none => .notFound
      | some (.error e) => .text 400 e.message
      | some (.ok review) => ⟨200, "application/json", review.encode.render⟩

end Server

end ControlLoop.Admission
