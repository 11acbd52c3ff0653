import ControlLoop.Program
/-!
# The command line
-/
namespace ControlLoop.Program

/-- The variables that the settings come from, with their values. -/
def environment : IO (List (String × String)) := do
  let values ← Settings.names.mapM fun name => return (← IO.getEnv name).map (name, ·)
  return values.filterMap id

/-- Prints what is to be printed and gives the code. -/
def Exit.perform (e : Exit) : IO UInt32 := do
  IO.print e.output
  IO.eprint e.errors
  return e.code.toUInt32

end ControlLoop.Program

open ControlLoop in
/-- The program where it is told of no cluster. -/
def main (arguments : List String) : IO UInt32 := do
  let given ← Program.environment
  let around : Program.Surroundings Unit := { cluster := none }
  let (course, ()) := Program.run around arguments (fun name => given.lookup name) ()
  match course.exit around.opening with
  | some e => e.perform
  | none => return 1
