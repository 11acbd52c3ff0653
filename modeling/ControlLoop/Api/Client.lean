import ControlLoop.Api.Answer
import ControlLoop.Api.Request
/-!
# A client of an API server

Each operation is one request and the reading of its answer. Requests go through a transport, which
may have a state of its own.
-/
namespace ControlLoop.Api

/-- A way to send requests; it answers or tells why it could not. -/
structure Transport (σ : Type) where
  send : Request → StateM σ (Except String Answer)

/-- An exchange with a server, which may fail. -/
abbrev Exchange (σ α : Type) := ExceptT ClientError (StateM σ) α

namespace Transport

variable {σ : Type}

/-- Sends a request that has passed its checks. -/
def ask (t : Transport σ) (r : Except Refusal Request) : ExceptT ApiError (StateM σ) Answer := do
  match r with
  | .error e => throw e.error
  | .ok r =>
    match ← t.send r with
    | .ok a => return a
    | .error text => throw (.failed s!"ServiceError: {text}")

/-- Sends a request and reads the answer. -/
def exchange {α : Type} (t : Transport σ) (r : Except Refusal Request)
    (read : Answer → Except ApiError α) : Exchange σ α := fun s =>
  match t.ask r s with
  | (.error e, s) => (.error e.toClientError, s)
  | (.ok a, s) =>
    match read a with
    | .ok v => (.ok v, s)
    | .error e => (.error e.toClientError, s)

end Transport

/-- A client that writes as the given manager of fields. -/
structure Client (σ : Type) where
  transport : Transport σ
  manager : String

namespace Client

variable {σ : Type} (c : Client σ) (ns : Option String)

section

variable (α : Type) [Resource α]

def list : Exchange σ (Listing α) :=
  c.transport.exchange (Request.list α ns) (·.read decodeListing)

def get (name : String) : Exchange σ α :=
  c.transport.exchange (Request.get α ns name) (·.read Resource.decode)

def patch (name : String) (patch : Json) : Exchange σ α :=
  c.transport.exchange (Request.patch α ns c.manager name patch) (·.read Resource.decode)

def updateStatus (name : String) (status : Json) (version : Option String) : Exchange σ α :=
  c.transport.exchange (Request.updateStatus α ns c.manager name status version) (·.read Resource.decode)

def delete (name : String) : Exchange σ Unit :=
  c.transport.exchange (Request.delete α ns name) (Answer.readRemoval α)

/-- Opens a watch; what it delivers may hold errors of its own. -/
def watch (version : String) : Exchange σ (List (Except ClientError (WatchEvent α))) :=
  c.transport.exchange (Request.watch α ns version) fun a =>
    .ok (a.events.map fun e => e.mapError ApiError.toClientError)

end

section

variable {α : Type} [Resource α]

def create (a : α) : Exchange σ α :=
  c.transport.exchange (Request.create ns c.manager a) (·.read Resource.decode)

def update (a : α) : Exchange σ α :=
  match (Resource.metadata a).name with
  | none => throw (.invalid "object has no metadata.name")
  | some name => c.transport.exchange (Request.update ns c.manager name a) (·.read Resource.decode)

end

end Client

end ControlLoop.Api
