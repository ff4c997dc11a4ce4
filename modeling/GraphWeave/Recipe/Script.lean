import GraphWeave.Recipe.Definition
import GraphWeave.Recipe.Request
import GraphWeave.Registry.Finish

/-!
Scripts: registry operations read from JSON and run in order on one registry.
-/

namespace GraphWeave.Recipe

/-- What a script may refer to by name: the modules it can register and the root value of the
application. -/
structure Environment (σ : Type) where
  module? : String → Option (Module σ)
  appRoot : FieldValue

/-- A step of a script. -/
inductive Step (σ : Type) where
  | register (d : Definition σ)
  | override (o : ObjectDef σ)
  | inject (target module : String) (fields : List (Option (FieldDef σ)))
  | expand (target : String) (transform : Option (Transform σ)) (provenance : Provenance)
  | modules (ms : List (Module σ))
  | finish (query mutation subscription : String)
  | execute (req : Request)
  | state

/-- The change an expansion asks for: interfaces to implement and fields to add, or an answer of
nothing, or a fresh object of another name; or no change function at all. -/
def expansion {σ : Type} (j : Json) : Except String (Option (Transform σ)) := do
  if j.flag "nilTransform" then return none
  let added ← (j.items "add").mapM (field (σ := σ) true)
  let implemented := names j "implement"
  match j.getStr? "result" with
  | some "nil" => pure (some fun _ => none)
  | some "rename" => pure (some fun _ => some { name := text j "rename" })
  | _ => pure (some fun o => some (added.foldl ObjectDef.field
      (implemented.foldl ObjectDef.implement o)))

/-- The modules of a list of names. -/
def modulesOf {σ : Type} (env : Environment σ) (j : Json) : Except String (List (Module σ)) :=
  (j.items "modules").mapM fun n =>
    match n with
    | .str s => match env.module? s with
      | some m => .ok m
      | none => .error ("unknown module " ++ s)
    | _ => .error "module names must be strings"

/-- The root value of a request step: the application's root, or the value its data describes. -/
def rootOf {σ : Type} (env : Environment σ) (j : Json) : FieldValue :=
  if j.flag "appRoot" then
    if j.flag "noRoot" then FieldValue.none else env.appRoot
  else
    match dataValue (Value.ofJson ((j.get? "root").getD .null)) with
    | .ok fv => fv
    | .error _ => FieldValue.none

/-- Reads a step. -/
def Step.ofJson {σ : Type} (env : Environment σ) (j : Json) : Except String (Step σ) :=
  match text j "do" with
  | "register" => .register <$> definition ((j.get? "def").getD .null)
  | "override" => .override <$> objectDef ((j.get? "def").getD .null)
  | "inject" => do
    let fs ← (j.items "fields").mapM fun f =>
      match f with
      | .null => pure none
      | f => some <$> field true f
    pure (.inject (text j "target") (text j "module") fs)
  | "expand" => do
    let t ← expansion j
    pure (.expand (text j "target") t ⟨text j "module", text j "field"⟩)
  | "modules" => .modules <$> modulesOf env j
  | "finish" => .ok (.finish (text j "query") (text j "mutation") (text j "subscription"))
  | "execute" => .execute <$> request j (rootOf env j)
  | "state" => .ok .state
  | other => .error ("unknown step " ++ Quoted.encode other)

/-- The outcome of a step. -/
inductive Outcome where
  /-- A registry operation succeeded. -/
  | done
  /-- A registry operation failed. -/
  | failed (e : RegistryError)
  /-- The registry was finished; the schema's text. -/
  | finished (sdl : String)
  | executed (result : ExecutionResult)
  /-- A request ran into a resolver that never returns: the script answers nothing more. -/
  | hung
  /-- The step could not be read or run, and why. -/
  | refused (message : String)
  /-- Only the state is reported. -/
  | reported

/-- A running script: the parser of its requests, the registry, the schema of the last successful
finish, and the host state of the requests. -/
structure Run (σ : Type) where
  parse : DocumentParser
  registry : Registry σ
  schema : Option (ExecutableSchema σ)
  session : Session σ

namespace Run

variable {σ : Type}

/-- Runs registry steps, keeping what they changed even when they fail. -/
def registration {α : Type} (steps : Registration σ α) : StateM (Run σ) (Except RegistryError α) :=
  fun r =>
    let (result, registry) := (steps.run.run r.registry)
    (result, { r with registry })

/-- Runs a registry operation that answers nothing. -/
def operation (steps : Registration σ Unit) : StateM (Run σ) Outcome := do
  match ← registration steps with
  | .ok () => pure .done
  | .error e => pure (.failed e)

/-- Runs a step. -/
def step : Step σ → StateM (Run σ) Outcome
  | .register (.object d) => operation (Registry.registerObject d)
  | .register (.interface d) => operation (Registry.registerInterface d)
  | .register (.union d) => operation (Registry.registerUnion d)
  | .register (.enum d) => operation (Registry.registerEnum d)
  | .register (.inputObject d) => operation (Registry.registerInputObject d)
  | .register (.scalar d) => operation (Registry.registerScalar d)
  | .override o => operation (Registry.overrideObject o)
  | .inject target module fs => operation (Registry.injectFields target module fs)
  | .expand target t p => operation (Registry.expandObject target t p)
  | .modules ms => operation (Registry.register ms)
  | .finish q m s => do
    match ← registration (Registry.finish q m s) with
    | .ok schema =>
      modify fun r => { r with schema := some schema }
      pure (.finished schema.sdl)
    | .error e => pure (.failed e)
  | .execute req => fun r =>
    match r.schema with
    | none => (.refused "no finished schema", r)
    | some schema =>
      let (result, session) := (schema.execute r.parse req).run r.session
      (if session.hung then .hung else .executed result, { r with session })
  | .state => pure .reported

end Run

/-- Runs a script from a host state: each step read and run in turn, with the registry's state
after it. A step that cannot be read is refused and changes nothing. -/
def runScript {σ : Type} (parse : DocumentParser) (env : Environment σ) (store : σ)
    (steps : List Json) : List (Outcome × RegistryState) :=
  let start : Run σ := { parse, registry := {}, schema := none, session := { store } }
  (steps.foldl (fun (acc, r) j =>
    let (outcome, r) := match Step.ofJson env j with
      | .ok s => (Run.step s).run r
      | .error message => (.refused message, r)
    (acc ++ [(outcome, r.registry.state)], r)) ([], start)).1

end GraphWeave.Recipe

namespace GraphWeave.Recipe

/-- A schema built directly from definitions read from JSON, with root type names and an
optional description, and no registry in between. -/
def buildSchema {σ : Type} (j : Json) : Except String (Except SchemaError (ExecutableSchema σ)) := do
  let definitions ← (j.items "types").mapM definition
  let builder : SchemaBuilder σ :=
    { query := text j "query", mutation := text j "mutation", subscription := text j "subscription"
      description := text j "description", definitions }
  pure builder.finish

/-- Runs requests in order on one schema, sharing the host state; `none` when one of them never
answers. -/
def executeAll {σ : Type} (s : ExecutableSchema σ) (parse : DocumentParser) (store : σ)
    (requests : List Request) : Option (List ExecutionResult) :=
  let (results, session) := requests.foldl (fun (acc, session) req =>
    let (r, session) := (s.execute parse req).run session
    (acc ++ [r], session)) (([] : List ExecutionResult), ({ store } : Session σ))
  if session.hung then none else some results

end GraphWeave.Recipe
