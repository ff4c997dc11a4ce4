import GraphWeave.Telemetry.Log
import GraphWeave.Cli.Directory

/-!
Command-line programs as values: what they ask of the system they run on, and what they do with the
answers.
-/

namespace GraphWeave.Cli

/-- What a program asks of its system, and the type of the answer. -/
inductive Effect : Type → Type where
  /-- All of the standard input. -/
  | readInput : Effect String
  /-- Writes a file, replacing it. -/
  | writeFile (path contents : String) : Effect (Except WriteError Unit)
  /-- Prints text on the standard output. -/
  | print (text : String) : Effect Unit
  /-- Prints text on the standard error. -/
  | report (text : String) : Effect Unit
  /-- Writes a log record on the standard error. -/
  | log (record : Telemetry.LogRecord) : Effect Unit
  /-- Serves on an address until stopped: how serving ended, a failure or a stop. -/
  | serve (address : String) : Effect (Except String Unit)
  /-- Stops answering: the program runs on without end. -/
  | hang : Effect Unit

/-- A program: a result, or a request and what follows its answer. -/
inductive Program (α : Type) where
  | pure : α → Program α
  | request {β : Type} : Effect β → (β → Program α) → Program α

namespace Program

variable {α β : Type}

/-- Runs a program, then another with its result. -/
def bind (p : Program α) (next : α → Program β) : Program β :=
  match p with
  | .pure a => next a
  | .request r rest => .request r fun b => (rest b).bind next

instance : Monad Program where
  pure := .pure
  bind := bind

/-- The program that makes one request and ends with its answer. -/
def ask (r : Effect β) : Program β := .request r .pure

end Program

/-- A line of the standard error: text, or a log record. -/
inductive ErrorLine where
  | text (s : String)
  | record (r : Telemetry.LogRecord)
deriving Repr

/-- What a program's run shows: the directory after it, what it printed, and whether it ran on
without end. -/
structure Transcript where
  directory : Directory
  output : String := ""
  errors : List ErrorLine := []
  hung : Bool := false
deriving Repr

namespace Program

/-- Runs a program against an in-memory directory and a standard input. Serving ends at once
with a stop, as when the program is interrupted. -/
def simulate {α : Type} (input : String) : Program α → Transcript → α × Transcript
  | .pure a, t => (a, t)
  | .request .readInput rest, t => simulate input (rest input) t
  | .request (.writeFile path contents) rest, t =>
    match t.directory.write path contents with
    | .ok d => simulate input (rest (.ok ())) { t with directory := d }
    | .error e => simulate input (rest (.error e)) t
  | .request (.print s) rest, t => simulate input (rest ()) { t with output := t.output ++ s }
  | .request (.report s) rest, t =>
    simulate input (rest ()) { t with errors := t.errors ++ [.text s] }
  | .request (.log r) rest, t =>
    simulate input (rest ()) { t with errors := t.errors ++ [.record r] }
  | .request (.serve _) rest, t => simulate input (rest (.ok ())) t
  | .request .hang rest, t => simulate input (rest ()) { t with hung := true }

end Program

end GraphWeave.Cli
