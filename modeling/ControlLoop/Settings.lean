import ControlLoop.Controller.Basic
import ControlLoop.SocketAddress
import ControlLoop.Text.Blank
import ControlLoop.Text.Quoted
/-!
# Settings

The program is set up by named variables. A variable that is unset or blank leaves the default in
place; any other value has to be readable, and the first one that is not is reported.
-/
namespace ControlLoop

/-- Why the text of a variable could not be read. -/
inductive ValueError where
  | integer (error : Text.IntegerError)
  | boolean
  | address
  deriving DecidableEq, Repr

def ValueError.message : ValueError → String
  | .integer e => e.message
  | .boolean => "provided string was not `true` or `false`"
  | .address => "invalid socket address syntax"

/-- Why there are no settings. -/
inductive SettingsError where
  | unreadable (name value : String) (error : ValueError)
  | noWorkers
  deriving DecidableEq, Repr

def SettingsError.message : SettingsError → String
  | .unreadable name value error => s!"{name}={Text.quoted value}: {error.message}"
  | .noWorkers => "CONTROLLER_WORKERS must be at least 1"

/-- Whether and where one instance of several is to take the lead. It is only reported. -/
structure LeaderElection where
  enabled : Bool := false
  lease : String := "keel-leader"
  ns : String := "default"
  deriving DecidableEq, Repr

/-- The settings of the program. -/
structure Settings where
  /-- The namespace to keep to; all of them if none is given. -/
  watchNamespace : Option String := none
  workers : Nat := 2
  rateLimitBase : Duration := .ofMillis 5
  rateLimitMax : Duration := .ofSeconds 1000
  watchReconnect : Duration := .ofSeconds 5
  metricsAddress : SocketAddress := .v4 [0, 0, 0, 0] 8080
  healthAddress : SocketAddress := .v4 [0, 0, 0, 0] 8081
  /-- Where admission is decided; nowhere if none is given. -/
  webhookAddress : Option SocketAddress := none
  eventReporter : String := "keel"
  leaderElection : LeaderElection := {}
  deriving DecidableEq, Repr

namespace Settings

/-- Where the values of variables come from. -/
abbrev Lookup := String → Option String

/-- The value of a variable that is set to more than blanks. -/
def value? (lookup : Lookup) (name : String) : Option String :=
  (lookup name).filter fun v => !Text.blank v

/-- Reads a trimmed text. -/
abbrev ValueReader (α : Type) := String → Except ValueError α

def word64 : ValueReader Nat := fun text =>
  match Text.readNat Text.word64Max text with
  | .ok n => .ok n
  | .error e => .error (.integer e)

def boolean : ValueReader Bool := fun text =>
  if text = "true" then .ok true
  else if text = "false" then .ok false
  else .error .boolean

def address : ValueReader SocketAddress := fun text =>
  match SocketAddress.ofString? text with
  | some a => .ok a
  | none => .error .address

/-- The reading of a variable, if it has a value. -/
def read? {α : Type} (lookup : Lookup) (name : String) (reader : ValueReader α) :
    Except SettingsError (Option α) :=
  match value? lookup name with
  | none => .ok none
  | some value =>
    match reader (Text.trim value) with
    | .ok a => .ok (some a)
    | .error e => .error (.unreadable name value e)

/-- The reading of a variable, or a default. -/
def read {α : Type} (lookup : Lookup) (name : String) (reader : ValueReader α) (default : α) :
    Except SettingsError α := do
  return (← read? lookup name reader).getD default

/-- The variables that settings are read from. -/
def names : List String :=
  ["CONTROLLER_WORKERS", "RATE_LIMIT_BASE_MS", "RATE_LIMIT_MAX_SECS", "WATCH_RECONNECT_SECS",
    "METRICS_ADDR", "HEALTH_ADDR", "WEBHOOK_ADDR", "LEADER_ELECTION", "WATCH_NAMESPACE",
    "EVENT_REPORTER", "LEADER_ELECTION_LEASE", "LEADER_ELECTION_NAMESPACE"]

/-- Reads all settings. -/
def load (lookup : Lookup) : Except SettingsError Settings := do
  let d : Settings := {}
  let workers ← read lookup "CONTROLLER_WORKERS" word64 d.workers
  if workers = 0 then throw .noWorkers
  let base ← read? lookup "RATE_LIMIT_BASE_MS" word64
  let max ← read? lookup "RATE_LIMIT_MAX_SECS" word64
  let reconnect ← read? lookup "WATCH_RECONNECT_SECS" word64
  let metrics ← read lookup "METRICS_ADDR" address d.metricsAddress
  let health ← read lookup "HEALTH_ADDR" address d.healthAddress
  let webhook ← read? lookup "WEBHOOK_ADDR" address
  let enabled ← read lookup "LEADER_ELECTION" boolean d.leaderElection.enabled
  return {
    watchNamespace := value? lookup "WATCH_NAMESPACE"
    workers := workers
    rateLimitBase := (base.map Duration.ofMillis).getD d.rateLimitBase
    rateLimitMax := (max.map Duration.ofSeconds).getD d.rateLimitMax
    watchReconnect := (reconnect.map Duration.ofSeconds).getD d.watchReconnect
    metricsAddress := metrics
    healthAddress := health
    webhookAddress := webhook
    eventReporter := (value? lookup "EVENT_REPORTER").getD d.eventReporter
    leaderElection := {
      enabled := enabled
      lease := (value? lookup "LEADER_ELECTION_LEASE").getD d.leaderElection.lease
      ns := (value? lookup "LEADER_ELECTION_NAMESPACE").getD d.leaderElection.ns } }

/-- The settings of a controller of the given name. -/
def controller (s : Settings) (name : String) : ControllerConfig where
  name := name
  ns := s.watchNamespace
  workers := s.workers
  rateLimitBase := s.rateLimitBase
  rateLimitMax := s.rateLimitMax
  reconnectBackoff := s.watchReconnect

end Settings

end ControlLoop
