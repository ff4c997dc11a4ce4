import GraphWeave.Modules.Avatars
import GraphWeave.Modules.Profiles
import GraphWeave.Modules.Counter
import GraphWeave.Modules.FooBar
import GraphWeave.Modules.Pets
import GraphWeave.Modules.Nodes
import GraphWeave.Modules.Directions
import GraphWeave.Modules.Echo
import GraphWeave.Modules.Scores

/-!
The application: the demonstration modules in their order, assembled into a schema with the
`Query` and `Mutation` roots. The host state is the counter.
-/

namespace GraphWeave

open Modules

/-- The application's host state. -/
structure AppState where
  counter : Int := 0
deriving Inhabited

namespace App

/-- Where the counter module keeps its counter. -/
def counterSlot : Counter.Slot AppState := ⟨(·.counter), fun st n => { st with counter := n }⟩

/-- The modules by name. -/
def module? : String → Option (Module AppState)
  | "root" => some Root.module
  | "users" => some User.module
  | "avatars" => some Image.module
  | "profiles" => some Profile.module
  | "counter" => some (Counter.module counterSlot)
  | "foobar" => some FooBar.module
  | "pets" => some Animal.module
  | "nodes" => some Node.module
  | "directions" => some Direction.module
  | "echo" => some Echo.module
  | "scores" => some Scores.module
  | _ => none

/-- The names of the modules, in their order. -/
def moduleNames : List String :=
  ["root", "users", "avatars", "profiles", "counter", "foobar", "pets", "nodes", "directions",
    "echo", "scores"]

/-- The modules, in their order. -/
def modules : List (Module AppState) := moduleNames.filterMap module?

/-- Registers modules on a fresh registry and finishes it with the given roots; also gives the
registry's log. -/
def assembleLogged (ms : List (Module AppState)) (query mutation subscription : String) :
    Except RegistryError (ExecutableSchema AppState) × List Telemetry.LogRecord :=
  let steps : Registration AppState (ExecutableSchema AppState) := do
    Registry.register ms
    Registry.finish query mutation subscription
  let (result, r) := steps.run.run {}
  (result, r.log)

/-- Registers modules on a fresh registry and finishes it with the given roots. -/
def assembleWith (ms : List (Module AppState)) (query mutation subscription : String) :
    Except RegistryError (ExecutableSchema AppState) :=
  (assembleLogged ms query mutation subscription).1

/-- Registers modules on a fresh registry and finishes it with the `Query` and `Mutation`
roots. -/
def assemble (ms : List (Module AppState)) : Except RegistryError (ExecutableSchema AppState) :=
  assembleWith ms Root.queryType Root.mutationType ""

/-- The root value of a request: the greeting, by reference. -/
def root : FieldValue := FieldValue.ofBorrowed (.ref (HostType.toValue Root.value)) ""

end App

end GraphWeave
