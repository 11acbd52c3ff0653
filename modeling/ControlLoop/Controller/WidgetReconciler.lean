import ControlLoop.Controller.Owner
import ControlLoop.Controller.Reconciler
import ControlLoop.Controller.Status
/-!
# The reconciler for widgets

A widget is run by a deployment of its own, which is made if it is missing and changed if it differs in
the number of replicas or the image. A deployment of that name that belongs to someone else is left
alone. The outcome is reported in the status of the widget, and nothing is written that is there
already.

What makes at most one request is a step. The order of the steps is written down once, for any monad
that steps can be carried over to: steps themselves, where nobody comes between them, and routines,
where somebody may.
-/
namespace ControlLoop.WidgetReconciler

/-- A step that may fail. -/
abbrev Step := ExceptT ReconcileError Session

/-- Steps one after the other, with room for others in between. -/
abbrev Routine := ExceptT ReconcileError (Job Cluster)

/-- A step is taken in one go. -/
instance : MonadLift Step Routine where
  monadLift step := ExceptT.mk (.lift step.run)

/-- A request as a step. -/
def ofRequest {β : Type} (r : Request β) : Step β := fun c =>
  match r c with
  | (.ok b, c) => (.ok b, c)
  | (.error e, c) => (.error (.client e), c)

/-- The name under which objects are marked as managed. -/
def managerName : String := "keel"

def widgetLabel : String := "example.com/widget"

def labels (w : Widget) : StringMap :=
  [("app.kubernetes.io/managed-by", managerName), (widgetLabel, w.metadata.displayName)]

def container (w : Widget) : Container where
  name := "widget"
  image := some w.image

/-- The address of the deployment that runs a widget. -/
def deploymentKey (w : Widget) : ObjectKey := ⟨w.metadata.ns, w.deploymentName⟩

/-- The deployment that a widget asks for. -/
def desired (w : Widget) (owner : OwnerReference) : Deployment where
  metadata := {
    name := some w.deploymentName
    ns := w.metadata.ns
    labels := some (labels w)
    ownerReferences := some [owner] }
  spec := some {
    replicas := some w.spec.replicas
    selector := { matchLabels := some [(widgetLabel, w.metadata.displayName)] }
    template := {
      metadata := some { labels := some (labels w) }
      spec := some { containers := [container w] } } }

/-- Whether a deployment runs what a widget asks for. -/
def isCurrent (w : Widget) (d : Deployment) : Bool :=
  d.spec.bind DeploymentSpec.replicas == some w.spec.replicas && d.firstImage == some w.image

/-- The patch that makes a deployment run what a widget asks for. -/
def correction (w : Widget) : Json :=
  .obj [("spec", .obj
    [("replicas", .int w.spec.replicas),
     ("template", .obj [("spec", .obj [("containers", .arr [(container w).encode])])])])]

/-- Makes the deployment. -/
def createDeployment (w : Widget) : Step Unit := do
  match Owner.reference w with
  | .error e => throw (.client e)
  | .ok owner => let _ ← ofRequest (Session.create w.metadata.ns (desired w owner))

/-- Looks for the deployment. -/
def findDeployment (w : Widget) : Step (Option Deployment) := fun c =>
  match Session.get Deployment (deploymentKey w) c with
  | (.error (.notFound _ _), c) => (.ok none, c)
  | (.error e, c) => (.error (.client e), c)
  | (.ok d, c) => (.ok (some d), c)

/-- Makes the deployment if there is none, or changes the one that there is, unless it is as it should
be. -/
def settleDeployment (w : Widget) : Option Deployment → Step Unit
  | none => createDeployment w
  | some d =>
    if ¬ Owner.isControlledBy d.metadata w then
      throw (.invalidResource
        (s!"deployment {w.deploymentName} exists and is not owned by widget " ++
          w.metadata.displayName))
    else if isCurrent w d then return ()
    else ofRequest (do let _ ← Session.patch Deployment (deploymentKey w) (correction w))

/-- Whether a condition says the same as another, whenever each was reported. -/
def agrees (c ready : Condition) : Bool :=
  c.type == ready.type && c.status == ready.status && c.reason == ready.reason &&
    c.message == ready.message

/-- Reports a condition, unless the status of the copy says so already. -/
def reportCondition (w : Widget) (ready : Condition) : Step Unit := do
  unless ((w.status.getD {}).conditions.getD []).any (agrees · ready) do
    let _ ← ofRequest (Status.updateCondition w ready)

/-- Reports the phase and the generation, unless the status of the copy says so already. -/
def reportPhase (w : Widget) (phase : String) : Step Unit := do
  if (w.status.getD {}).phase ≠ some phase ∨ ¬ w.isObserved then
    let status : WidgetStatus := {
      phase := some phase
      observedGeneration := w.metadata.generation }
    let _ ← ofRequest (Status.update w status.encode)

/-- The complaint about a negative number of replicas. -/
def negativeReplicas (n : Int) : String := s!"spec.replicas must not be negative, got {n}"

def pendingPhase : String := "Pending"

def runningPhase : String := "Running"

/-- The condition of a widget that cannot run. -/
def invalidCondition (w : Widget) : Condition :=
  .report Widget.readyType false "InvalidSpec" (negativeReplicas w.spec.replicas)
    w.metadata.generation

/-- The condition of a widget that runs. -/
def configuredCondition (w : Widget) : Condition :=
  .report Widget.readyType true "DeploymentConfigured"
    s!"Deployment {w.deploymentName} runs {w.spec.replicas} replicas" w.metadata.generation

/-- Removes the deployment of a widget, if there is one. -/
def finalize (w : Widget) : Step Unit := fun c =>
  match Session.delete Deployment (deploymentKey w) c with
  | (.ok (), c) => (.ok (), c)
  | (.error (.notFound _ _), c) => (.ok (), c)
  | (.error e, c) => (.error (.client e), c)

/-! ## The order of the steps -/

section Order

variable (m : Type → Type) [Monad m] [MonadLiftT Step m] (w : Widget)

/-- Looks for the deployment, and makes or changes it, unless it is as it should be. -/
def ensureDeploymentIn : m Unit := do
  let found ← (findDeployment w : m (Option Deployment))
  settleDeployment w found

/-- Reports a condition, then the phase and the generation. -/
def reportIn (phase : String) (ready : Condition) : m Unit := do
  reportCondition w ready
  reportPhase w phase

/-- Brings the deployment of a widget and the report on it up to date. -/
def reconcileIn : m Outcome := do
  if w.spec.replicas < 0 then
    reportIn m w pendingPhase (invalidCondition w)
  else
    ensureDeploymentIn m w
    reportIn m w runningPhase (configuredCondition w)
  return {}

end Order

/-! ### Without a break -/

def ensureDeployment (w : Widget) : Step Unit := ensureDeploymentIn Step w

def report (w : Widget) (phase : String) (ready : Condition) : Step Unit := reportIn Step w phase ready

def reconcile (w : Widget) : Step Outcome := reconcileIn Step w

/-! ### As work for a controller -/

/-- A routine as work. -/
def Routine.task {β : Type} (r : Routine β) : Task β := r.run.bind fun result => .done (.ofExcept result)

/-- The reconciler. -/
def reconciler {σ : Type} : Reconciler σ where
  reconcile w s := ((reconcileIn Routine w).task, s)
  finalize w s := (Routine.task (liftM (finalize w)), s)

end ControlLoop.WidgetReconciler
