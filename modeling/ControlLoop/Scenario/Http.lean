import ControlLoop.Http.Basic
import ControlLoop.Json.Access
import ControlLoop.Json.Printer
import ControlLoop.Text.Base64
/-!
# Requests in scenarios

A body is given as text, as a document, or as octets in base 64.
-/
namespace ControlLoop.Http

/-- The body of a request. -/
def bodyOf (v : Json) : ByteArray :=
  match v.textAt? "body", v.get? "json", v.textAt? "base64" with
  | some s, _, _ => s.toUTF8
  | none, some j, _ => j.render.toUTF8
  | none, none, some s =>
    match Text.Base64.decode s with
    | .ok l => ⟨l.toArray⟩
    | .error _ => .empty
  | none, none, none => .empty

def Request.ofJson (v : Json) : Request :=
  { method := v.textAt "method" "GET", path := v.textAt "path", body := bodyOf v }

/-- What arrives over a connection, where a path may have a query. One on which the octets are given is
closed before its body is complete. -/
def Arrival.ofJson (v : Json) : Arrival :=
  if (v.textAt? "raw").isSome then .cutShort
  else
    let r := Request.ofJson v
    .whole { r with path := pathOf r.path }

def Response.report (r : Response) : Json :=
  .obj [("status", .nat r.status), ("content_type", .str r.contentType), ("body", .str r.body)]

/-- The machine on which a program listens. -/
structure Host where
  /-- Whether connections to its own addresses get through. -/
  linked : Bool
  deriving DecidableEq, Repr

/-- An answer over the connections of a host. -/
def Host.ask (h : Host) (router : Router) (v : Json) : Json :=
  if h.linked then (router.receive (.ofJson v)).report else .str "unreachable"

end ControlLoop.Http
