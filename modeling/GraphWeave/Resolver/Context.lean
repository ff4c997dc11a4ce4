import GraphWeave.Execution.Executor
import GraphWeave.Value.Json
import GraphWeave.Json.Print

/-!
What a resolver sees and how it reads it.
-/

namespace GraphWeave

/-- Why a resolver gave no value: an error, a panic with its message, or a walk that never ends,
so that the resolver never returns. -/
inductive Failure where
  | error (e : FieldError)
  | panic (message : String)
  | hang
deriving Repr, Inhabited

/-- A failure with a plain message. -/
def Failure.fail (message : String) : Failure := .error { message }

/-- Request metadata: values by lower-case name. -/
abbrev Metadata := List (String × List String)

/-- The values of a metadata name, matched without regard to case. -/
def Metadata.get (md : Metadata) (name : String) : List String :=
  match md.find? (·.1 == name.toLower) with
  | some (_, vs) => vs
  | none => []

/-- What a resolver sees. -/
structure ResolverContext where
  parent : FieldValue
  arguments : List (String × Value)
  path : Path
  objectType : String
  field : String
  /-- The document nodes selecting the field, for the look-ahead. -/
  fields : List Field
  document : Document
  metadata : Metadata

/-- A resolver over host state `σ`. -/
abbrev Resolver (σ : Type) := ResolverContext → StateM σ (Except Failure FieldValue)

/-- A resolver that leaves the host state alone. -/
def Resolver.ofExcept {σ : Type} (f : ResolverContext → Except Failure FieldValue) : Resolver σ :=
  fun rc => pure (f rc)

/-- A step that fails with a field error fails the resolver with it. -/
instance : MonadLift (Except FieldError) (Except Failure) where
  monadLift r := r.mapError Failure.error

/-- Host types that field values can hold, such as the records of a module. -/
class HostType (α : Type) where
  /-- The type's name as reported in errors, e.g. `users.User`. -/
  typeName : String
  toValue : α → Value
  ofValue? : Value → Option α

/-- A parent of the wrong host type: the expected and actual type names and the path. -/
structure DowncastError where
  expected : String
  actual : String
  path : Path

/-- `expected parent of type T, got U at a.b[0].c`. -/
def DowncastError.message (e : DowncastError) : String :=
  "expected parent of type " ++ e.expected ++ ", got " ++ e.actual ++
    (if e.path.isEmpty then "" else " at " ++ e.path.compact)

/-- A parent of the wrong type fails the resolver. -/
instance : MonadLift (Except DowncastError) (Except Failure) where
  monadLift r := r.mapError fun e => .fail e.message

/-- Why an argument cannot be read. -/
inductive ArgumentReadError where
  | missing (name : String)
  /-- The value has no JSON text, or its text does not decode to the wanted type. -/
  | undecodable (name : String)

/-- The message of an argument read error. The decoder's own account of a failure is not part
of it: every decoding failure reads the same. -/
def ArgumentReadError.message : ArgumentReadError → String
  | .missing name => "argument " ++ Quoted.encode name ++ " was not provided"
  | .undecodable name => "argument " ++ Quoted.encode name ++ ": <decode error>"

/-- An argument that cannot be read fails the resolver. -/
instance : MonadLift (Except ArgumentReadError) (Except Failure) where
  monadLift r := r.mapError fun e => .fail e.message

/-- Types an argument can be read as: a value already of the type, or decoded from JSON. -/
class FromArgument (α : Type) where
  direct? : Value → Option α
  decode? : Json → Option α

namespace FromArgument

/-- Signed integers of a width decode from integers written plainly that fit it; null is 0. -/
def decodeInt (bits : Nat) : Json → Option Int
  | .null => some 0
  | .num n =>
    if n.integral then
      match n.toInt? with
      | some v => if -Int.pow 2 (bits - 1) ≤ v ∧ v < Int.pow 2 (bits - 1) then some v else none
      | none => none
    else none
  | _ => none

instance : FromArgument String where
  direct? | .str s => some s | _ => none
  decode? | .str s => some s | .null => some "" | _ => none

instance : FromArgument Int where
  direct? | .int .word n => some n | _ => none
  decode? := decodeInt 64

instance : FromArgument Bool where
  direct? | .bool b => some b | _ => none
  decode? | .bool b => some b | .null => some false | _ => none

instance : FromArgument Binary64 where
  direct? | .double x => some x | _ => none
  decode? | .num n => some n.toBinary64 | .null => some .zero | _ => none

instance {α : Type} [FromArgument α] : FromArgument (List α) where
  direct? _ := none
  decode?
    | .arr items => items.mapM FromArgument.decode?
    | .null => some []
    | _ => none

end FromArgument

namespace ResolverContext

/-- The dotted paths of the fields selected below this one; the resolver hangs when the walk
never ends. -/
def selectedFieldNames (rc : ResolverContext) : Except Failure (List String) :=
  match GraphWeave.selectedFieldNames rc.document rc.fields with
  | some names => .ok names
  | none => .error .hang

/-- Whether a dotted path is selected below this field. -/
def hasSelectedField (rc : ResolverContext) (path : String) : Except Failure Bool :=
  rc.selectedFieldNames.map (·.contains path)

/-- The host type name of the parent's value, or `null`. -/
def parentTypeName (rc : ResolverContext) : String :=
  match rc.parent.host? with
  | some v => if v.isNull then "null" else v.typeName
  | none => "null"

/-- Reads a host value as a type, directly or through a reference. -/
def downcast {α : Type} [HostType α] (v : Value) : Option α :=
  match HostType.ofValue? v with
  | some a => some a
  | none =>
    match v with
    | .ref target => HostType.ofValue? target
    | _ => none

/-- The parent's value as a host type. -/
def parentAs (α : Type) [HostType α] (rc : ResolverContext) : Except DowncastError α :=
  match rc.parent.host?.bind downcast with
  | some a => .ok a
  | none => .error ⟨HostType.typeName α, rc.parentTypeName, rc.path⟩

/-- An argument read with a reader: a value the reader takes as it is, or else the reading of
the value's JSON text. -/
def argWith {α : Type} (direct? : Value → Option α) (decode? : Json → Option α)
    (rc : ResolverContext) (name : String) : Except ArgumentReadError α :=
  match Value.lookup rc.arguments name with
  | none => .error (.missing name)
  | some raw =>
    match direct? raw with
    | some a => .ok a
    | none =>
      match raw.toJson?.bind decode? with
      | some a => .ok a
      | none => .error (.undecodable name)

/-- An argument as a type: as it is, or through its JSON text. -/
def arg {α : Type} [FromArgument α] (rc : ResolverContext) (name : String) :
    Except ArgumentReadError α :=
  rc.argWith FromArgument.direct? FromArgument.decode? name

/-- An argument read with a reader, or the fallback when it is absent or null. -/
def argOrWith {α : Type} (direct? : Value → Option α) (decode? : Json → Option α)
    (rc : ResolverContext) (name : String) (fallback : α) : Except ArgumentReadError α :=
  match Value.lookup rc.arguments name with
  | none | some .null => .ok fallback
  | some _ => rc.argWith direct? decode? name

/-- An argument as a type, or the fallback when it is absent or null. -/
def argOr {α : Type} [FromArgument α] (rc : ResolverContext) (name : String) (fallback : α) :
    Except ArgumentReadError α :=
  rc.argOrWith FromArgument.direct? FromArgument.decode? name fallback

end ResolverContext

end GraphWeave
