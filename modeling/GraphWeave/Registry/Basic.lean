import GraphWeave.Definition.Runtime
import GraphWeave.Telemetry.Log

/-!
The registry: where modules register named definitions and ask for changes to object types that
other modules own.
-/

namespace GraphWeave

/-- Where a registry is in its life. -/
inductive RegistryState where
  | accumulating
  | finalizing
  | finalized
  | failed
deriving DecidableEq, Repr, Inhabited

/-- The name of a registry state. -/
def RegistryState.name : RegistryState → String
  | .accumulating => "accumulating"
  | .finalizing => "finalizing"
  | .finalized => "finalized"
  | .failed => "failed"

/-- The module and field that asked for a change. -/
structure Provenance where
  module : String
  field : String
deriving Repr, Inhabited

/-- A change to an object type: the object it becomes, or nothing. -/
abbrev Transform (σ : Type) := ObjectDef σ → Option (ObjectDef σ)

/-- A change waiting for its target object. -/
structure Injection (σ : Type) where
  target : String
  transform : Transform σ
  provenance : Provenance

/-- A change that could not be applied, and why. -/
structure StuckInjection where
  target : String
  provenance : Provenance
  reason : String
deriving Repr, Inhabited

/-- Why a registry operation failed. -/
inductive RegistryError where
  | notAccumulating (operation : String) (state : RegistryState)
  | duplicate (category name : String)
  | overrideMissing (name : String)
  | nilTransform (target module : String)
  | nilField (target module : String)
  /-- A module's registration failed. -/
  | inModule (module : String) (cause : RegistryError)
  | stuck (injections : List StuckInjection)
  | schema (e : SchemaError)
deriving Repr, Inhabited

namespace RegistryError

/-- The message of a registry error. -/
def message : RegistryError → String
  | .notAccumulating op state =>
    op ++ ": registry is no longer accumulating (state " ++ state.name ++ ")"
  | .duplicate category name => category ++ " " ++ Quoted.encode name ++ " is already registered"
  | .overrideMissing name => "override object: " ++ Quoted.encode name ++ " is not registered"
  | .nilTransform target module =>
    "expand object " ++ target ++ ": nil transform from module " ++ Quoted.encode module
  | .nilField target module =>
    "inject into " ++ target ++ ": nil field from module " ++ Quoted.encode module
  | .inModule module cause => "module " ++ module ++ ": " ++ cause.message
  | .stuck injections =>
    "unresolved field injections:\n" ++ String.join (injections.map fun s =>
      "- " ++ s.target ++ "." ++ s.provenance.field ++ " requested by module " ++
        Quoted.encode s.provenance.module ++ ": " ++ s.reason ++ "\n")
  | .schema e => e.message

/-- The error a module's failure wraps. -/
def cause : RegistryError → RegistryError
  | .inModule _ e => e.cause
  | e => e

/-- The distinct targets of stuck changes, sorted. -/
def stuckTargets (injections : List StuckInjection) : List String :=
  (injections.map (·.target)).eraseDups.mergeSort fun a b => decide (a ≤ b)

end RegistryError

/-- A registry: definitions by kind in registration order, the field and interface counts each
object had when registered, and the changes waiting. -/
structure Registry (σ : Type) where
  state : RegistryState := .accumulating
  objects : List (ObjectDef σ) := []
  inputs : List InputObjectDef := []
  enums : List EnumDef := []
  unions : List UnionDef := []
  interfaces : List (InterfaceDef σ) := []
  scalars : List ScalarDef := []
  bases : List (String × Nat × Nat) := []
  pending : List (Injection σ) := []
  log : List Telemetry.LogRecord := []

/-- Steps on a registry; a failed step keeps what it did before failing. -/
abbrev Registration (σ : Type) := ExceptT RegistryError (StateM (Registry σ))

/-- A module: a name and the steps that register it. -/
structure Module (σ : Type) where
  name : String
  register : Registration σ Unit

namespace Registry

variable {σ : Type}

/-- Refuses an operation once registration is closed. -/
def checkAccumulating (operation : String) : Registration σ Unit := do
  let r ← get
  if r.state != .accumulating then throw (.notAccumulating operation r.state)

/-- Adds a record to the registry's log. -/
def note (record : Telemetry.LogRecord) : Registration σ Unit :=
  modify fun r => { r with log := r.log ++ [record] }

/-- Sets an entry of a table by name, in place when present. -/
def setNamed {α : Type} (name : α → String) (xs : List α) (x : α) : List α :=
  if xs.any (name · == name x) then xs.map fun y => if name y == name x then x else y
  else xs ++ [x]

/-- Stores an object and the counts it was registered with. -/
def setObject (o : ObjectDef σ) : Registration σ Unit :=
  modify fun r => { r with
    objects := setNamed (·.name) r.objects o
    bases := setNamed (·.1) r.bases (o.name, o.fields.length, o.interfaces.length) }

/-- Registers an object type. -/
def registerObject (o : ObjectDef σ) : Registration σ Unit := do
  checkAccumulating "register object"
  if (← get).objects.any (·.name == o.name) then throw (.duplicate "object" o.name)
  setObject o

/-- Replaces a registered object type; changes already applied to it are lost. -/
def overrideObject (o : ObjectDef σ) : Registration σ Unit := do
  checkAccumulating "override object"
  if !(← get).objects.any (·.name == o.name) then throw (.overrideMissing o.name)
  note (.debug "object overridden" [("type", .text o.name)])
  setObject o

/-- Registers an input object type. -/
def registerInputObject (d : InputObjectDef) : Registration σ Unit := do
  checkAccumulating "register input object"
  if (← get).inputs.any (·.name == d.name) then throw (.duplicate "input object" d.name)
  modify fun r => { r with inputs := r.inputs ++ [d] }

/-- Registers an enum type. -/
def registerEnum (d : EnumDef) : Registration σ Unit := do
  checkAccumulating "register enum"
  if (← get).enums.any (·.name == d.name) then throw (.duplicate "enum" d.name)
  modify fun r => { r with enums := r.enums ++ [d] }

/-- Registers a union type. -/
def registerUnion (d : UnionDef) : Registration σ Unit := do
  checkAccumulating "register union"
  if (← get).unions.any (·.name == d.name) then throw (.duplicate "union" d.name)
  modify fun r => { r with unions := r.unions ++ [d] }

/-- Registers an interface type. -/
def registerInterface (d : InterfaceDef σ) : Registration σ Unit := do
  checkAccumulating "register interface"
  if (← get).interfaces.any (·.name == d.name) then throw (.duplicate "interface" d.name)
  modify fun r => { r with interfaces := r.interfaces ++ [d] }

/-- Registers a custom scalar. -/
def registerScalar (d : ScalarDef) : Registration σ Unit := do
  checkAccumulating "register scalar"
  if (← get).scalars.any (·.name == d.name) then throw (.duplicate "scalar" d.name)
  modify fun r => { r with scalars := r.scalars ++ [d] }

/-- Asks for a change to an object type, applied when the registry is finished; a missing
transform is refused at once. -/
def expandObject (target : String) (transform : Option (Transform σ)) (p : Provenance) :
    Registration σ Unit := do
  checkAccumulating "expand object"
  match transform with
  | none => throw (.nilTransform target p.module)
  | some t => modify fun r => { r with pending := r.pending ++ [⟨target, t, p⟩] }

/-- Asks for fields to be added to an object type, one change per field named after it; a
missing field is refused after the fields before it are queued. -/
def injectFields (target module : String) : List (Option (FieldDef σ)) → Registration σ Unit
  | [] => pure ()
  | none :: _ => throw (.nilField target module)
  | some f :: rest => do
    expandObject target (some fun o => some (o.field f)) ⟨module, f.name⟩
    injectFields target module rest

/-- Runs modules in order, stopping at the first that fails. -/
def register : List (Module σ) → Registration σ Unit
  | [] => pure ()
  | m :: rest => do
    tryCatch m.register fun e => throw (.inModule m.name e)
    note (.debug "module registered" [("module", .text m.name)])
    register rest

end Registry

end GraphWeave
