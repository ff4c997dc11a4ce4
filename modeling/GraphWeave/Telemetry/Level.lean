import GraphWeave.Text.Case
import GraphWeave.Text.Quoted

/-!
Log levels, read from configuration without regard to case; an empty name is `info`, and an unknown
name is an error rather than a silent default. A logger at a level writes records of that level and
above.
-/

namespace GraphWeave.Telemetry

/-- A log level. -/
inductive Level where
  | debug
  | info
  | warn
  | error
deriving DecidableEq, Repr, Inhabited

namespace Level

/-- The name of a level. -/
def name : Level → String
  | .debug => "debug"
  | .info => "info"
  | .warn => "warn"
  | .error => "error"

/-- All levels, low to high. -/
def all : List Level := [.debug, .info, .warn, .error]

/-- The rank of a level, low to high. -/
def rank : Level → Nat
  | .debug => 0
  | .info => 1
  | .warn => 2
  | .error => 3

/-- Reads a level name. -/
def parse (s : String) : Except String Level :=
  match lowerCase s with
  | "debug" => .ok .debug
  | "" | "info" => .ok .info
  | "warn" => .ok .warn
  | "error" => .ok .error
  | _ => .error ("unknown log level " ++ Quoted.encode s)

/-- The levels a logger at this level writes, low to high. -/
def enabled (l : Level) : List Level := all.filter fun m => l.rank ≤ m.rank

end Level

/-- Checks a tracing export setup: nothing to set up without an endpoint, and otherwise the
protocol must be `grpc`, `http` or empty. -/
def checkExport (endpoint protocol : String) : Except String Unit :=
  if endpoint.isEmpty then .ok ()
  else if protocol == "" || protocol == "grpc" || protocol == "http" then .ok ()
  else .error ("unsupported OTLP protocol " ++ Quoted.encode protocol)

end GraphWeave.Telemetry
