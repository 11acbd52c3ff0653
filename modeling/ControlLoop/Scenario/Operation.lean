import ControlLoop.Http.Probe
import ControlLoop.Program
import ControlLoop.Scenario.Admission
import ControlLoop.Scenario.Http
import ControlLoop.Scenario.Routes
/-!
# Operators and programs in scenarios

An operator with controllers that do nothing but wait for their end, and the program as a whole, seen
from outside.
-/
namespace ControlLoop

def Endpoint.label : Endpoint → String
  | metrics => "metrics"
  | health => "health"
  | webhook => "webhook"

def Endpoint.ofLabel (name : String) : Endpoint :=
  match name with
  | "metrics" => .metrics
  | "health" => .health
  | _ => .webhook

def Manager.ofJson (v : Json) : Manager :=
  ⟨v.textAt "name", ⟨v.textAt "group", v.textAt "version", v.textAt "kind"⟩⟩

namespace Operator

/-- The endpoints that a scenario puts to use. -/
def ofJson (v : Json) : Operator :=
  [Endpoint.metrics, .health, .webhook].foldl (fun o e =>
    if v.textAt e.label = "" then o else o.listenOn e s!"<{e.label} address>") {}

/-- An endpoint whose port is taken cannot be opened. -/
def openingOf (v : Json) : Opening := fun e =>
  if v.textAt e.label = "occupied" then
    .error (cannotBind s!"<{e.label} address>" "Address already in use (os error 98)")
  else .ok ()

/-- Whether the operator has come so far that it waits for its end. -/
def Run.isUp (r : Run) : Bool :=
  match r.steps with
  | .awaitStop :: _ => true
  | _ => false

/-- How an operator has ended, if it has. -/
def Run.report (r : Run) : Json :=
  match r.result with
  | some (.ok ()) => .str "ok"
  | some (.error e) => e.report
  | none => .null

/-- The operator, what it serves, and which of its controllers have seen their objects. -/
structure Stage where
  host : Http.Host
  operator : Operator
  webhook : Admission.Server
  synced : List String

namespace Stage

def isReady (s : Stage) : Bool := s.operator.isReady fun m => m.name ∈ s.synced

def router (s : Stage) : Endpoint → Http.Router
  | .metrics => Http.metrics none
  | .health => Http.health s.isReady
  | .webhook => s.webhook.route

/-- One step of a scenario with its answer. -/
def step (s : Stage) (v : Json) : Json × Stage :=
  match v.textAt? "sync" with
  | some name =>
    let s := { s with synced := name :: s.synced }
    (.bool s.isReady, s)
  | none =>
    let e := Endpoint.ofLabel (v.textAt "probe")
    (if (s.operator.address e).isSome then s.host.ask (s.router e) v else .null, s)

def steps (s : Stage) : List Json → List Json
  | [] => []
  | v :: rest =>
    let (out, s) := s.step v
    out :: steps s rest

end Stage

/-- What the controllers write down: that they ran, and what could be reached when they were told to
stop. -/
def diary (o : Operator) (reachable : List Endpoint) : List Json :=
  o.managers.flatMap fun m =>
    [.arr [.str m.name, .str "started"],
      .arr [.str m.name, .str "stopped", .arr (reachable.map fun e => .str e.label)]]

/-- Documents in increasing order of their texts. -/
def sortByText (l : List Json) : List Json :=
  l.mergeSort fun a b => !decide (b.render < a.render)

/-- An operator from its start to its end. -/
def rehearse (host : Http.Host) (v : Json) : Json :=
  let given := v.itemsAt "controllers"
  let (notes, o) := (ofJson v).registerAll (given.map .ofJson)
  let synced := (given.filter fun c => c.flagAt "synced").map fun c => c.textAt "name"
  let stage : Stage := ⟨host, o, (({} : Admission.Server).registerAll (v.itemsAt "handlers")).2, synced⟩
  let opening := openingOf v
  let begun := (Run.ofOperator o).advance opening
  let stopping := begun.interrupt opening
  let final := stopping.drainAll opening
  let reachable := if host.linked then stopping.serving else []
  .obj [("registered", .arr (notes.map fun n => (n.map Failure.report).getD .null)),
    ("names", .ofTexts o.names),
    ("ready", .bool stage.isReady),
    ("steps", .arr (if begun.isUp then stage.steps (v.itemsAt "steps") else [])),
    ("result", final.report),
    ("released", .arr (o.endpoints.map fun e => .bool !(final.serving.contains e))),
    ("log", .arr (if begun.isUp then sortByText (o.diary reachable) else []))]

end Operator

/-- A server for health alone, with requests one after the other: an operator with one endpoint, which can
be opened and is released at the end. A connection that is left idle is closed then, if there can be
one. -/
def Http.Host.rehearseHealth (host : Http.Host) (v : Json) : Json :=
  let opening : Operator.Opening := fun _ => .ok ()
  let begun := (Operator.Run.ofOperator (({} : Operator).listenOn .health "")).advance opening
  let final := (begun.interrupt opening).drainAll opening
  let isReachable := host.linked && final.serving.contains .health
  .obj [("answers", .arr ((v.itemsAt "requests").map (host.ask (Http.health (v.flagAt "ready"))))),
    ("result", final.report), ("idle_closed", .bool (host.linked && !isReachable)),
    ("reachable_after", .bool isReachable)]

namespace Program

/-- Variables as a scenario gives them. -/
def lookupOf (v : Json) (name : String) : Settings.Lookup := fun wanted =>
  ((v.membersAt name).find? fun e => e.1 = wanted).bind fun e => e.2.asText?

/-- The program on a command line, where it is told of no cluster. -/
def rehearse (v : Json) : Json :=
  let around : Surroundings Unit := { cluster := none }
  let course := (run around ((v.itemsAt "args").map Json.asText) (lookupOf v "env") ()).1
  let exit := (course.exit around.opening).getD { code := 0 }
  let errors := if v.flagAt "first_line" then (exit.errors.splitOn "\n").headD "" else exit.errors
  .obj [("code", .nat exit.code), ("stdout", .str exit.output), ("stderr", .str errors)]

/-- Whether a request is one of the informer's: it reads the collection that is watched. -/
def isFeed (watched : String) (r : Api.Request) : Bool :=
  r.method = "GET" ∧ Http.pathOf r.target = watched

/-- The program with a cluster that it cannot reach, on a machine on which no connection gets through.
The cluster has its answers prepared, but no request comes to it. So the program waits for the cluster
to serve widgets until it is interrupted, and none of its endpoints is open. -/
def rehearseAlone (v : Json) : Json :=
  let around : Surroundings RouteTable := { cluster := some RouteTable.cutOff }
  let (course, table) := run around [] (lookupOf v "env") (.ofJson v)
  let host : Http.Host := { linked := false }
  let answer (e : Endpoint) (probe : Json) : Json :=
    match course with
    | .operating p run =>
      if run.serving.contains e then host.ask (p.router false e) probe else .str "unreachable"
    | _ => .str "unreachable"
  let (feed, others) := table.takeReceived.1.partition
    (isFeed (v.textAt "watched" "/apis/example.com/v1/widgets"))
  .obj [("code", ((course.exit around.opening).map fun e => .nat e.code).getD .null),
    -- The metrics would be asked for over a connection, too.
    ("metrics", .arr []),
    ("probes", .arr ((v.itemsAt "probes").map fun p => answer (.ofLabel (p.textAt "endpoint")) p)),
    ("requests", .arr (others.map fun r =>
      .arr [.str r.method, .str (Http.pathOf r.target), reportBody r.body])),
    ("informer", .nat feed.length)]

end Program

/-- What the second of two installations in one process fails with. -/
def Metrics.installedTwice : Failure := alreadyInstalled

example : Metrics.install (Metrics.install none).toOption = .error Metrics.installedTwice := rfl

end ControlLoop
