import ControlLoop.Admission.WidgetPolicy
import ControlLoop.Report
import ControlLoop.Scenario.Basic
/-!
# Admission in scenarios

Handlers with a fixed way of deciding, as a scenario gives them.
-/
namespace ControlLoop.Admission

def HandlerError.kind : HandlerError → String
  | .invalidReview _ => "InvalidReview"
  | .serialization _ => "Serialization"
  | .handler _ => "Handler"

def HandlerError.report (e : HandlerError) : Json := .ofError e.kind e.message

/-- The error of a handler that always fails. -/
def HandlerError.ofJson (v : Json) : HandlerError :=
  match v.textAt "error" "handler" with
  | "handler" => .handler (v.textAt "message")
  | "invalid" => .invalidReview (v.textAt "message")
  | _ => .serialization (.malformed Scenario.decodeText)

/-- Denies a change of what is asked for. -/
def immutable (r : Request) : Except HandlerError Verdict :=
  match r.object, r.oldObject with
  | some new, some old =>
    let spec (v : Json) : Option Json := (v.get? "spec").map Json.unsigned
    .ok (if spec new = spec old then .allow else .deny "spec is immutable")
  | none, none => .error (.invalidReview "nothing to compare")
  | _, _ => .ok .allow

/-- A handler that validates in the named way. -/
def validatingNamed (v : Json) : Request → Except HandlerError Verdict :=
  match v.textAt "kind" with
  | "widget" => WidgetPolicy.validate
  | "deny" => fun _ => .ok (.deny (v.textAt "message"))
  | "deny_silent" => fun _ => .ok { allowed := false }
  | "fail" => fun _ => .error (.ofJson v)
  | "immutable" => immutable
  | _ => fun _ => .ok .allow

/-- A handler that mutates in the named way. -/
def mutatingNamed (v : Json) (_ : Request) : Except HandlerError Mutation :=
  let patched (verdict : Verdict) : Except HandlerError Mutation :=
    match JsonPatch.decode (v.member "patch") with
    | .ok p => .ok { verdict := verdict, patch := some p }
    | .error e => .error (.serialization e)
  match v.textAt "kind" with
  | "patch" => patched .allow
  | "deny_with_patch" => patched (.deny (v.textAt "message"))
  | "deny" => .ok { verdict := .deny (v.textAt "message") }
  | "fail" => .error (.ofJson v)
  | _ => .ok { verdict := .allow }

/-- A handler as a scenario gives it. -/
def Handler.ofJson (v : Json) : Handler :=
  let how := v.member "handler"
  if v.textAt "type" = "mutating" then .mutating (mutatingNamed how)
  else .validating (validatingNamed how)

/-- Registers the handlers that a scenario gives. -/
def Server.registerAll (s : Server) (given : List Json) : List (Option Failure) × Server :=
  s.registerEach (given.map fun v => (v.textAt "path", .ofJson v))

/-- An attached patch as a document. -/
def Response.patchReport (r : Response) : Json := (r.decodedPatch.map JsonPatch.encode).getD .null

end ControlLoop.Admission
