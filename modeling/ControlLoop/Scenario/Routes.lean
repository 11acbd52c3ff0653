import ControlLoop.Api.Client
import ControlLoop.Http.Basic
import ControlLoop.Json.Document
import ControlLoop.Report
/-!
# A server with prepared answers

A scenario gives the answers of a server beforehand. Several answers for one method and path are given
in order, and the last one again and again.
-/
namespace ControlLoop

/-- A prepared answer, or the failure to get one. -/
structure Route where
  method : String
  path : String
  reply : Except String Api.Answer

/-- The answers that are left, and the requests that have come, the latest one first. -/
structure RouteTable where
  routes : List Route
  received : List Api.Request := []

namespace RouteTable

/-- The next answer among those that match; the last one stays. -/
def playNext (matching : Route → Bool) :
    List Route → Option (Except String Api.Answer × List Route)
  | [] => none
  | r :: rest =>
    if matching r then some (r.reply, if rest.any matching then rest else r :: rest)
    else (playNext matching rest).map fun p => (p.1, r :: p.2)

/-- The answer for a path that has none. -/
def missing (path : String) : Api.Answer where
  status := 404
  body := (Json.obj [("apiVersion", .str "v1"), ("kind", .str "Status"), ("status", .str "Failure"),
    ("message", .str ("resource \"" ++ path ++ "\" not found")), ("reason", .str "NotFound"),
    ("code", .nat 404)]).render

def send (r : Api.Request) : StateM RouteTable (Except String Api.Answer) := fun t =>
  let path := Http.pathOf r.target
  let received := r :: t.received
  match playNext (fun route => route.method = r.method ∧ route.path = path) t.routes with
  | none => (.ok (missing path), { t with received })
  | some (reply, routes) => (reply, ⟨routes, received⟩)

def transport : Api.Transport RouteTable := ⟨send⟩

/-- No request comes to the server. -/
def cutOff : Api.Transport RouteTable := ⟨fun _ t => (.error "connection refused", t)⟩

/-- Forgets the requests that have come, and tells them in order. -/
def takeReceived (t : RouteTable) : List Api.Request × RouteTable :=
  (t.received.reverse, { t with received := [] })

end RouteTable

/-- The text of a prepared answer: text as it is, the items of a list on lines of their own. -/
def Route.bodyText : Json → String
  | .str s => s
  | .arr items => String.join (items.map fun v => v.render ++ "\n")
  | v => v.render

def Route.ofJson (v : Json) : Route where
  method := v.textAt "method" "GET"
  path := v.textAt "path"
  reply := match v.textAt? "fail" with
    | some text => .error text
    | none => .ok ⟨v.natAt "status" 200, bodyText (v.member "body")⟩

def RouteTable.ofJson (v : Json) : RouteTable := { routes := (v.itemsAt "routes").map .ofJson }

/-- A body as a document, or as text if it is none. -/
def reportBody (body : String) : Json :=
  match Json.parse body with
  | .ok v => v.sorted
  | .error _ => .str body

def Api.Request.report (r : Api.Request) : Json :=
  .obj [("method", .str r.method), ("uri", .str r.target), ("content_type", .ofString? r.contentType),
    ("body", reportBody r.body)]

end ControlLoop
