import ControlLoop.Admission.WidgetPolicy
import ControlLoop.Api.Discovery
import ControlLoop.Controller.Basic
import ControlLoop.Http.Probe
import ControlLoop.Operator.Run
import ControlLoop.Resource.Definition
import ControlLoop.Settings
/-!
# The program

From its arguments and settings the program either has something to print and ends, or it knows what to
run: a controller for widgets, the endpoints for supervision, and, if it has an address, the webhook.
How far it gets with that depends on its surroundings, and above all on whether it reaches a cluster that
serves widgets.
-/
namespace ControlLoop

namespace Metrics

/-- The failure to install a registry where there is one already. -/
def alreadyInstalled : Failure :=
  .server ("failed to install Prometheus recorder: failed to install exporter as global recorder: " ++
    "attempted to set a recorder after the metrics system was already initialized")

/-- Installs the registry of the process, which is empty, unless it has one. -/
def install : Option Registry → Except Failure Registry
  | none => .ok []
  | some _ => .error alreadyInstalled

end Metrics

namespace Program

/-- How the program ends. -/
structure Exit where
  code : Nat
  output : String := ""
  errors : String := ""
  deriving DecidableEq, Repr

/-- An error with what it was that failed. -/
def failing (what : String) (cause : Option String) : Exit where
  code := 1
  errors := s!"Error: {what}\n" ++
    match cause with
    | some text => s!"\nCaused by:\n    {text}\n"
    | none => ""

/-- What becomes of the program once its arguments and settings are known. -/
inductive Start where
  | ends (exit : Exit)
  | runs (settings : Settings)

/-- The program prints the definition of widgets if asked for it, and otherwise needs its settings. -/
def start (arguments : List String) (lookup : Settings.Lookup) : Start :=
  if arguments.head? = some "crd" then
    .ends { code := 0, output := Widget.definition.renderBlock ++ "\n" }
  else
    match Settings.load lookup with
    | .error e => .ends (failing "Failed to load configuration" (Failure.invalidConfig e.message).message)
    | .ok s => .runs s

/-- The end if no cluster is known. -/
def noCluster : Exit := failing "Failed to create Kubernetes client" none

/-! ## Putting the parts together -/

/-- The finalizer that the program puts on widgets. -/
def finalizer : String := "example.com/f"

/-- How the controller for widgets is set up. -/
def controller (s : Settings) : ControllerConfig :=
  { s.controller "widgets" with finalizer := some finalizer }

/-- The webhook of the program. -/
def webhook : Except Failure Admission.Server :=
  ({} : Admission.Server).register Admission.WidgetPolicy.path Admission.WidgetPolicy.handler

/-- What the program runs. -/
def operator (s : Settings) : Except Failure Operator :=
  let o := (({} : Operator).listenOn .metrics s.metricsAddress.text).listenOn .health
    s.healthAddress.text
  let o := match s.webhookAddress with
    | some a => o.listenOn .webhook a.text
    | none => o
  match o.register ⟨"widgets", ⟨Widget.group, Widget.version, Widget.kind⟩⟩ with
  | (none, o) => .ok o
  | (some e, _) => .error e

/-- The parts of the program, with a way to the cluster whose state is a `τ`. -/
structure Setup (τ : Type) where
  client : Api.Client τ
  registry : Metrics.Registry
  controller : ControllerConfig
  predicate : Predicate Widget
  reconciler : Reconciler Unit
  webhook : Option Admission.Server
  operator : Operator

variable {τ : Type}

def setUp (s : Settings) (registry : Metrics.Registry) (transport : Api.Transport τ) :
    Except Failure (Setup τ) := do
  let server ← match s.webhookAddress with
    | some _ => some <$> webhook
    | none => pure none
  return {
    client := ⟨transport, WidgetReconciler.managerName⟩
    registry := registry
    controller := controller s
    predicate := .generationChanged
    reconciler := WidgetReconciler.reconciler
    webhook := server
    operator := ← operator s }

/-- What the endpoints of the program answer. -/
def Setup.router (p : Setup τ) (ready : Bool) : Endpoint → Http.Router
  | .metrics => Http.metrics (some p.registry)
  | .health => Http.health ready
  | .webhook => (p.webhook.getD {}).route

/-! ## Running -/

/-- What the program finds around it. -/
structure Surroundings (τ : Type) where
  /-- The way to the cluster, if the program is told of one. -/
  cluster : Option (Api.Transport τ)
  opening : Operator.Opening := fun _ => .ok ()
  /-- The seconds after which the program is interrupted. -/
  patience : Nat := 0

/-- How far the program has come when it is interrupted. -/
inductive Course (τ : Type) where
  | ended (exit : Exit)
  /-- It waits for the cluster to serve widgets. -/
  | waiting
  | operating (setup : Setup τ) (run : Operator.Run)

/-- The program once its settings are known: it needs a registry and a cluster, waits until the cluster
serves widgets, and then lets its operator run. -/
def course (around : Surroundings τ) (s : Settings) : StateM τ (Course τ) :=
  match Metrics.install none, around.cluster with
  | .error e, _ => return .ended (failing "Failed to install Prometheus recorder" e.message)
  | .ok _, none => return .ended noCluster
  | .ok registry, some transport => do
    match ← transport.waitFor Widget.group Widget.version Widget.kind around.patience with
    | none => return .waiting
    | some _ =>
      match setUp s registry transport with
      | .error e => return .ended (failing e.message none)
      | .ok p => return .operating p ((Operator.Run.ofOperator p.operator).advance around.opening)

/-- The program from its beginning. -/
def run (around : Surroundings τ) (arguments : List String) (lookup : Settings.Lookup) :
    StateM τ (Course τ) :=
  match start arguments lookup with
  | .ends e => return .ended e
  | .runs s => course around s

/-- The endpoints that are open then. -/
def Course.serving : Course τ → List Endpoint
  | .operating _ run => run.serving
  | _ => []

/-- How the program ends when it is interrupted. Only the operator can be interrupted in order; before
that the program is gone without a code. -/
def Course.exit (opening : Operator.Opening) : Course τ → Option Exit
  | .ended e => some e
  | .waiting => none
  | .operating _ run =>
    match ((run.interrupt opening).drainAll opening).result with
    | some (.ok ()) => some { code := 0 }
    | some (.error e) => some (failing "Operator failed" e.message)
    | none => none

end Program

end ControlLoop
