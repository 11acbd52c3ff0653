/-!
# Requests and answers

What the parts that answer over HTTP see of a request, and what they say.
-/
namespace ControlLoop.Http

/-- A request. The path carries no query. -/
structure Request where
  method : String := "GET"
  path : String
  body : ByteArray := .empty

/-- An answer. -/
structure Response where
  status : Nat
  contentType : String
  body : String
  deriving DecidableEq, Repr

namespace Response

/-- An answer in plain text. -/
def text (status : Nat) (body : String) : Response := ⟨status, "text/plain; charset=utf-8", body⟩

def notFound : Response := text 404 "Not Found"

end Response

/-- Something that answers requests. -/
abbrev Router := Request → Response

/-- What arrives on a connection. -/
inductive Arrival where
  | whole (request : Request)
  /-- The connection ended before the body did. -/
  | cutShort

/-- A request is answered once its body is complete. -/
def Router.receive (router : Router) : Arrival → Response
  | .whole r => router r
  | .cutShort => .text 400 "Failed to read request body"

/-- A target without its query. -/
def pathOf (target : String) : String := String.ofList (target.toList.takeWhile (· ≠ '?'))

end ControlLoop.Http
