import QueryGuard.CommandLine.Run
import Std.Time.Format

/-!
The program: it looks at its surroundings, runs and prints.
-/

namespace QueryGuard.CommandLine

/-- What a path leads to from the working directory. -/
def fileState (path : String) : IO FileState := do
  let place := (← IO.currentDir) / path
  if ← place.isDir then return .directory
  else if ← place.pathExists then
    try return .text (← IO.FS.readFile place)
    catch _ => return .unreadable
  else return .missing

/-- The present time, in the universal time zone. -/
def timestamp : IO String := do
  let now ← Std.Time.Timestamp.now
  let date := Std.Time.DateTime.ofTimestampWithZone now .UTC
  return date.format "uuuu-MM-dd'T'HH:mm:ss.SSSSSSSSSxxx"

/-- The surroundings of a run with the given arguments. -/
def surroundings (args : List String) : IO Surroundings := do
  let named ← IO.getEnv configVariable
  let directory := Config.userDirectory? (← IO.getEnv Config.directoryVariable)
    (← IO.getEnv Config.homeVariable)
  let files ← (filesToRead named directory args).mapM fun path => do
    return (path, ← fileState path)
  return {
    sources :=
      { files := fun path => (files.lookup path).getD .missing
        userDirectory := directory
        enabled := ← IO.getEnv Config.enabledVariable }
    configVariable := named
    script := (← IO.appPath).toString
    workingDirectory := (← IO.currentDir).toString
    timestamp := ← timestamp }

end QueryGuard.CommandLine

open QueryGuard.CommandLine in
/-- The program. -/
def main (args : List String) : IO UInt32 := do
  let outcome := run (← surroundings args) args
  (← IO.getStdout).putStr outcome.output
  (← IO.getStderr).putStr outcome.errors
  return outcome.code.toUInt32
