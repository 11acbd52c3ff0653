import ControlLoop.Controller.Basic
import ControlLoop.Controller.Scripted
import ControlLoop.Scenario.Basic
/-!
# Controllers in scenarios

The settings of a controller, the choice of changes and the script of its reconciler, as a scenario
gives them.
-/
namespace ControlLoop

/-- A condition, whole or by the parts that a reporter knows. -/
def Condition.ofJson (v : Json) : Decoded Condition :=
  match v.get? "new" with
  | some (.arr [.str type, .bool holds, .str reason, .str message]) =>
    .ok (.report type holds reason message ((v.field? "generation").map Json.asInt))
  | _ => Condition.decode v

def EventRecord.ofJson (v : Json) : EventRecord where
  severity := if v.textAt "type" = "Warning" then .warning else .normal
  reason := v.textAt "reason"
  message := v.textAt "message"

def Effect.ofJson (v : Json) : Effect :=
  match v.asMembers with
  | ("update_status", x) :: _ => .updateStatus x
  | ("update_condition", x) :: _ => .updateCondition x
  | ("event", x) :: _ => .event (.ofJson x)
  | ("patch", x) :: _ => .patch x
  | _ => .ownerReference

/-- How an action ends. A delay of its own asks for another run by itself. -/
def Finish.ofJson (v : Json) : Finish :=
  match v.textAt? "panic", v.field? "error" with
  | some text, _ => .panic text
  | none, some e => .fail (.ofJson e)
  | none, none =>
    let after := (v.natAt? "after_ms").map Duration.ofMillis
    .outcome { requeue := v.flagAt "requeue" after.isSome, after := after }

def Action.ofJson (v : Json) : Action where
  sleep := .ofMillis (v.natAt "sleep_ms")
  effects := (v.itemsAt "effects").map .ofJson
  finish := .ofJson v

def Script.ofJson (v : Json) : Script :=
  let actions (name : String) := (v.membersAt name).map fun e => (e.1, e.2.asItems.map Action.ofJson)
  ⟨actions "script", actions "finalize_script"⟩

/-- A reconciler by name; the one for widgets unless another is named. -/
def Reconciler.named (name : String) : Reconciler Script :=
  match name with
  | "none" => .idle
  | "scripted" => Script.reconciler
  | _ => WidgetReconciler.reconciler

def Predicate.named (name : String) : Predicate Widget :=
  match name with
  | "generation" => .generationChanged
  | "added" => .custom fun | .added _ => true | _ => false
  | "modified" => .custom fun | .modified _ _ => true | _ => false
  | "deleted" => .custom fun | .deleted _ => true | _ => false
  | other =>
    if other.startsWith "name:" then .custom fun c => "name:" ++ c.key.name = other else .always

def ControllerConfig.ofJson (v : Json) : ControllerConfig :=
  let d : ControllerConfig := {}
  { name := v.textAt "name" d.name
    ns := v.textAt? "namespace"
    workers := v.natAt "workers" d.workers
    rateLimitBase := .ofField v "rate_limit_base_ms" d.rateLimitBase
    rateLimitMax := .ofField v "rate_limit_max_ms" d.rateLimitMax
    reconnectBackoff := .ofField v "reconnect_backoff_ms" d.reconnectBackoff
    finalizer := v.textAt? "finalizer" }

end ControlLoop
