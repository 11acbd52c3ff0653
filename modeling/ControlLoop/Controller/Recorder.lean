import ControlLoop.Cluster.Session
/-!
# Recording events

An event is recorded on a best-effort basis: whether the request succeeds makes no difference to the
one who records it.
-/
namespace ControlLoop

/-- How an event is to be taken. -/
inductive Severity where
  | normal
  | warning
  deriving DecidableEq, Repr

def Severity.text : Severity → String
  | normal => "Normal"
  | warning => "Warning"

/-- What is to be recorded. -/
structure EventRecord where
  severity : Severity
  reason : String
  message : String
  deriving DecidableEq, Repr

namespace Recorder

variable {α : Type} [Resource α]

/-- The event object for something that happened to `a`. -/
def eventFor (date : Timestamp) (reporter suffix : String) (a : α) (record : EventRecord) : Event where
  metadata := {
    name := some ((Resource.metadata a).displayName ++ "." ++ suffix)
    ns := some ((Resource.metadata a).ns.getD "default") }
  involvedObject := .ofObject a
  type := some record.severity.text
  reason := some record.reason
  message := some record.message
  firstTimestamp := some date
  lastTimestamp := some date
  count := some 1
  source := some { component := some reporter }
  reportingComponent := some reporter

/-- Records that something happened to `a`. -/
def record (a : α) (what : EventRecord) : Session Unit := fun c =>
  let event := eventFor c.date c.reporter c.nextSuffix a what
  let c := { c with suffixes := c.suffixes + 1 }
  ((), (Session.create event.metadata.ns event c).2)

end Recorder

end ControlLoop
