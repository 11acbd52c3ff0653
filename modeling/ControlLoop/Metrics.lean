import ControlLoop.Decimal.Shortest
import ControlLoop.Duration
/-!
# Metrics of reconciliation

How often each controller has worked on a key, how often that failed and how long it took. A registry
holds one series for each controller name and shows all of them in the text format that monitoring
systems read.
-/
namespace ControlLoop

/-- A span in seconds: whole seconds and the fraction, each rounded by itself. -/
def Duration.toSeconds (d : Duration) : Float :=
  Float.ofNat (d / 1000000000) + Float.ofNat (d % 1000000000) / Float.ofNat 1000000000

namespace Metrics

/-- How often keys have been worked on, and how often that failed. -/
structure Tally where
  runs : Nat := 0
  errors : Nat := 0
  deriving DecidableEq, Repr

/-- Counts one more run. -/
def Tally.count (t : Tally) (ok : Bool) : Tally where
  runs := t.runs + 1
  errors := if ok then t.errors else t.errors + 1

/-- What is known of the runs of one controller; the time only if it is measured. -/
structure Series where
  tally : Tally := {}
  seconds : Option Float := none

/-- Takes one more run into account. -/
def Series.observe (s : Series) (elapsed : Duration) (ok : Bool) : Series where
  tally := s.tally.count ok
  seconds := s.seconds.map (· + elapsed.toSeconds)

/-- The series of all controllers, by name, in the order in which they were registered. -/
abbrev Registry := List (String × Series)

namespace Registry

/-- Adds a controller; a second one of the same name shares the series of the first. -/
def register (r : Registry) (name : String) : Registry :=
  if r.any fun e => e.1 = name then r else r ++ [(name, { seconds := some 0 : Series })]

/-- Counts a run of a controller. -/
def observe (r : Registry) (name : String) (elapsed : Duration) (ok : Bool) : Registry :=
  (r.register name).map fun e => if e.1 = name then (e.1, e.2.observe elapsed ok) else e

end Registry

/-- The text of a label value after a backslash that has not been written yet, if `held`. A backslash
that escapes a quote or another backslash is not escaped again. -/
def escapeFrom (held : Bool) : List Char → List Char
  | [] => if held then ['\\', '\\'] else []
  | c :: rest =>
    if c = '\n' then '\\' :: 'n' :: escapeFrom held rest
    else if c = '"' then '\\' :: '"' :: escapeFrom false rest
    else if c = '\\' then
      if held then '\\' :: '\\' :: escapeFrom false rest else escapeFrom true rest
    else if held then '\\' :: '\\' :: c :: escapeFrom false rest
    else c :: escapeFrom false rest

/-- A label value as it is written between quotes. -/
def escape (value : String) : String := String.ofList (escapeFrom false value.toList)

/-- The labels of the series of a controller. -/
def labels (name : String) : String := "\x7bcontroller=\"" ++ escape name ++ "\"\x7d"

def runsName : String := "keel_reconciliations_total"

def errorsName : String := "keel_reconciliation_errors_total"

def secondsName : String := "keel_reconciliation_duration_seconds"

/-- A number of seconds in decimal notation without an exponent. -/
def secondsText (seconds : Float) : String := Decimal.render .full seconds.toBits

namespace Registry

/-- One line for each series of a counter, below the line that gives its type. -/
def counter (r : Registry) (name : String) (value : Tally → Nat) : List String :=
  s!"# TYPE {name} counter" :: r.map fun e => name ++ labels e.1 ++ " " ++ toString (value e.2.tally)

/-- The lines for the time that runs took. -/
def summary (r : Registry) : List String :=
  s!"# TYPE {secondsName} summary" :: r.flatMap fun e =>
    (e.2.seconds.map fun s => secondsName ++ "_sum" ++ labels e.1 ++ " " ++ secondsText s).toList ++
      [secondsName ++ "_count" ++ labels e.1 ++ " " ++ toString e.2.tally.runs]

/-- All series, each metric in a paragraph of its own. Without any series there is nothing to show. -/
def lines (r : Registry) : List String :=
  if r.isEmpty then []
  else
    counter r runsName (·.runs) ++ [""] ++ counter r errorsName (·.errors) ++ [""] ++
      summary r ++ [""]

def text (r : Registry) : String := String.join (r.lines.map (· ++ "\n"))

end Registry

end Metrics

end ControlLoop
