import GraphWeave.Cli.Commands
import GraphWeave.Document.Parser

/-!
The command line on the real system: the arguments and environment of the process, its standard
streams and its working directory. Log records are written as JSON lines.
-/

open GraphWeave Cli

/-- The reason of a failed write, as the system gives it. -/
def writeErrorOf : IO.Error → WriteError
  | .noFileOrDirectory .. => .missing
  | .inappropriateType _ 20 _ => .notDirectory
  | .inappropriateType _ 21 _ => .isDirectory
  | .permissionDenied .. => .other "permission denied"
  | e => .other (toString e)

/-- Performs one effect on the system. -/
def perform : {β : Type} → Effect β → IO β
  | _, .readInput => do (← IO.getStdin).readToEnd
  | _, .writeFile path contents => do
    try
      IO.FS.writeFile path contents
      pure (.ok ())
    catch e => pure (.error (writeErrorOf e))
  | _, .print text => do
    let out ← IO.getStdout
    out.putStr text
    out.flush
  | _, .report text => do
    let err ← IO.getStderr
    err.putStr text
    err.flush
  | _, .log record => do
    let err ← IO.getStderr
    err.putStrLn (Json.render record.toJson)
    err.flush
  | _, .serve address => pure (.error ("listen tcp " ++ address ++ ": operation not supported"))
  | _, .hang => do repeat IO.sleep 1000

/-- Runs a program on the system. -/
def runOnSystem {α : Type} : Program α → IO α
  | .pure a => pure a
  | .request e rest => do
    let b ← perform e
    runOnSystem (rest b)

/-- The variables of the environment that the configuration reads. -/
def configEnvironment : IO (List (String × String)) := do
  let names := Config.settings.flatMap fun s => [Config.prefixName ++ "_" ++ s.key, s.key]
  names.filterMapM fun name => do
    pure ((← IO.getEnv name).map fun v => (name, v))

def main (args : List String) : IO UInt32 := do
  let env ← configEnvironment
  let status ← runOnSystem (Cli.program Document.parse args env)
  pure status.toUInt32
