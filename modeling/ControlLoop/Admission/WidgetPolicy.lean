import ControlLoop.Admission.Server
import ControlLoop.Controller.WidgetReconciler
/-!
# Admission of widgets

A widget may be created or changed unless it asks for a negative number of replicas.
-/
namespace ControlLoop.Admission.WidgetPolicy

def validate (r : Request) : Except HandlerError Verdict :=
  match r.operation with
  | .delete => .ok .allow
  | .connect => .ok .allow
  | _ =>
    match r.object with
    | none => .error (.invalidReview "request carries no object")
    | some v =>
      match Widget.decode v with
      | .error e => .error (.serialization e)
      | .ok w =>
        if w.spec.replicas < 0 then .ok (.deny (WidgetReconciler.negativeReplicas w.spec.replicas))
        else .ok .allow

def handler : Handler := .validating validate

/-- The path under which widgets are validated. -/
def path : String := "/validate-widget"

end ControlLoop.Admission.WidgetPolicy
