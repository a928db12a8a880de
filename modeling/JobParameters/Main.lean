/-
# The program

Collects the files, the variable and the time that a run of the command line can
see, and writes what it comes to.
-/
import JobParameters.CommandLine.Run
import Std.Time.DateTime.Timestamp

open JobParameters

/-- The bytes of a file, if it can be read. -/
def contentsOf (path : String) : IO (Option ByteArray) := do
  try
    return some (← IO.FS.readBinFile path)
  catch _ =>
    return none

/-- The time of day. -/
def currentTime : IO Timestamp := do
  let t ← Std.Time.Timestamp.now
  return Timestamp.ofNanoseconds t.toNanosecondsSinceUnixEpoch.val

def main (args : List String) : IO UInt32 := do
  let configPath ← IO.getEnv CommandLine.configVariable
  let files ← (CommandLine.paths args configPath).mapM fun path => do
    return (path, ← contentsOf path)
  let outcome := CommandLine.run args
    { contents := fun path => (files.lookup path).join
      configPath := configPath
      now := ← currentTime }
  IO.print outcome.output
  IO.eprint outcome.error
  return outcome.code
