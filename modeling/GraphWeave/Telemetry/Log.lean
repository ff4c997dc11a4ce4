import GraphWeave.Telemetry.Level
import GraphWeave.Json.Basic

/-!
Structured log records and the logger that writes them.
-/

namespace GraphWeave.Telemetry

/-- The value of a log field. -/
inductive LogValue where
  | text (s : String)
  | number (n : Int)
deriving DecidableEq, Repr, Inhabited

/-- A log record. -/
structure LogRecord where
  level : Level
  message : String
  fields : List (String × LogValue) := []
deriving DecidableEq, Repr, Inhabited

namespace LogRecord

/-- A debug record. -/
def debug (message : String) (fields : List (String × LogValue) := []) : LogRecord :=
  ⟨.debug, message, fields⟩

/-- An info record. -/
def info (message : String) (fields : List (String × LogValue) := []) : LogRecord :=
  ⟨.info, message, fields⟩

/-- A warning record. -/
def warn (message : String) (fields : List (String × LogValue) := []) : LogRecord :=
  ⟨.warn, message, fields⟩

/-- An error record. -/
def error (message : String) (fields : List (String × LogValue) := []) : LogRecord :=
  ⟨.error, message, fields⟩

/-- The JSON object of a record: `level`, `msg` and the fields. -/
def toJson (r : LogRecord) : Json :=
  .obj ([("level", .str r.level.name), ("msg", .str r.message)] ++ r.fields.map fun (k, v) =>
    (k, match v with
      | .text s => .str s
      | .number n => Json.int n))

end LogRecord

/-- How many records a logger writes of one level and message before it starts sampling. -/
def sampleFirst : Nat := 100

/-- After the first ones, a logger writes every this many records of one level and message. -/
def sampleEvery : Nat := 100

/-- A logger: its level and how many records of each level and message it has seen. -/
structure Logger where
  level : Level
  seen : List ((Level × String) × Nat) := []
deriving Inhabited

namespace Logger

/-- Whether the `n`-th record (counting from one) of a level and message is written. -/
def sampled (n : Nat) : Bool := n ≤ sampleFirst || (n - sampleFirst) % sampleEvery == 0

/-- Offers a record to the logger: whether it is written, and the logger after it. Records
below the level are not counted. -/
def offer (l : Logger) (r : LogRecord) : Bool × Logger :=
  if r.level.rank < l.level.rank then (false, l)
  else
    let key := (r.level, r.message)
    let n := (l.seen.lookup key).getD 0 + 1
    (sampled n, { l with seen := (key, n) :: l.seen.filter (·.1 != key) })

end Logger

end GraphWeave.Telemetry
