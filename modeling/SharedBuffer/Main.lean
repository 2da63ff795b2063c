/-
The command itself: reads the files it is pointed to, prints what `Command.run` answers, and exits with its code.
-/
import SharedBuffer.Command.Run

namespace SharedBuffer.Command

/-- the text of a file, if it can be read -/
def readTextFile (path : String) : IO (Option String) := do
  try return some (← IO.FS.readFile path)
  catch _ => return none

/-- the texts of the files that a run may look at -/
def readFiles (arguments : List String) : IO (List (String × Option String)) :=
  match Reading.ofArguments arguments with
  | .run options =>
    (defaultConfigPath :: (options.config.toList ++ options.plan.toList)).mapM fun path => do
      return (path, ← readTextFile path)
  | _ => return []

/-- the line that tells a failure: one about the configuration in plain words, any other as the log has it -/
def failureLine (outcome : Outcome) : Failure → String
  | .config path e => commandName ++ ": " ++ (Failure.config path e).message
  | f => if outcome.jsonLog then f.toJson.compact else f.logText

/-- runs the command on real files -/
def execute (arguments : List String) : IO UInt32 := do
  let files ← readFiles arguments
  let outcome := run arguments fun path => (files.lookup path).join
  IO.print outcome.output
  match outcome.failure with
  | some failure => IO.eprintln (failureLine outcome failure)
  | none => pure ()
  return outcome.exitCode

end SharedBuffer.Command

def main (arguments : List String) : IO UInt32 := SharedBuffer.Command.execute arguments
