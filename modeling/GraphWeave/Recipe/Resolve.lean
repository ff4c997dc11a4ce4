import GraphWeave.Recipe.Data
import GraphWeave.Recipe.Describe

/-!
Resolver recipes: resolvers described by a word or a small object instead of code.
-/

namespace GraphWeave.Recipe

/-- The types an argument can be read as. -/
inductive ArgKind where
  | int
  | int32
  | float
  | string
  | bool
  | id
  | ints
  | strings
  | object
deriving DecidableEq, Repr

namespace ArgKind

/-- The kind of a name: `int`, `int32`, `float`, `string`, `bool`, `id`, `ints`, `strings` or
`object`. -/
def ofName? : String → Option ArgKind
  | "int" => some .int
  | "int32" => some .int32
  | "float" => some .float
  | "string" => some .string
  | "bool" => some .bool
  | "id" => some .id
  | "ints" => some .ints
  | "strings" => some .strings
  | "object" => some .object
  | _ => none

/-- A string decoded from JSON; null is the empty string. -/
def decodeString : Json → Option String
  | .str s => some s
  | .null => some ""
  | _ => none

/-- A value already of the kind's type, as the field value it resolves to. Only the default
integer, 32-bit integers, doubles, strings, Booleans, identifiers and maps are taken as they
are. -/
def direct? : ArgKind → Value → Option FieldValue
  | .int, .int .word n => some (FieldValue.ofValue (.int .word n))
  | .int32, .int .w32 n => some (FieldValue.ofValue (.int .w32 n))
  | .float, .double x => some (FieldValue.ofValue (.double x))
  | .string, .str s => some (FieldValue.ofValue (.str s))
  | .bool, .bool b => some (FieldValue.ofValue (.bool b))
  | .id, .id s => some (FieldValue.ofValue (.str s))
  | .object, .map entries => some (FieldValue.ofValue (.str (Value.map entries).describe))
  | _, _ => none

/-- A value of the kind's type decoded from JSON, as the field value it resolves to. A null
decodes to the type's zero: `0`, `""`, `false`, an empty list or an empty map. -/
def decode? : ArgKind → Json → Option FieldValue
  | .int, j => (FromArgument.decodeInt 64 j).map fun n => FieldValue.ofValue (.int .word n)
  | .int32, j => (FromArgument.decodeInt 32 j).map fun n => FieldValue.ofValue (.int .w32 n)
  | .float, .num n => some (FieldValue.ofValue (.double n.toBinary64))
  | .float, .null => some (FieldValue.ofValue (.double .zero))
  | .string, j => (decodeString j).map fun s => FieldValue.ofValue (.str s)
  | .bool, .bool b => some (FieldValue.ofValue (.bool b))
  | .bool, .null => some (FieldValue.ofValue (.bool false))
  | .id, j => (decodeString j).map fun s => FieldValue.ofValue (.str s)
  | .ints, .arr items =>
    (items.mapM (FromArgument.decodeInt 64)).map fun ns =>
      FieldValue.ofList (ns.map fun n => FieldValue.ofValue (.int .word n))
  | .ints, .null => some (FieldValue.ofList [])
  | .strings, .arr items =>
    (items.mapM decodeString).map fun ss => FieldValue.ofList (ss.map fun s => FieldValue.ofValue (.str s))
  | .strings, .null => some (FieldValue.ofList [])
  | .object, .obj members =>
    some (FieldValue.ofValue (.str (Value.ofVariableJson (.obj members)).describe))
  | .object, .null => some (FieldValue.ofValue (.str (Value.map []).describe))
  | _, _ => none

end ArgKind

/-- A coerced argument as a field value: lists item by item, maps owned without a type name,
null as null, and anything else as a leaf. -/
def argumentValue : Value → FieldValue
  | .null => FieldValue.none
  | .list items => FieldValue.ofList (items.attach.map fun ⟨item, _⟩ => argumentValue item)
  | .map entries => FieldValue.ofOwned (.map entries) ""
  | v => FieldValue.ofValue v

/-- The host data under a key of the parent: the parent must hold a map, or a reference to one. -/
def parentEntry (parent : FieldValue) (key : String) : Option Value :=
  match parent.host? with
  | some (.map entries) | some (.ref (.map entries)) => Value.lookup entries key
  | _ => none

/-- The type name reported for a parent that is not the one a recipe expects. -/
def expectedParent : String := "main.Thing"

/-- A resolver recipe. -/
inductive Resolve where
  /-- The parent's entry under a key, read as data; null when there is none. -/
  | parent (key : String)
  /-- Fixed data. -/
  | const (data : Value)
  /-- The description of the coerced arguments, as a string. -/
  | args
  /-- A coerced argument as it is. -/
  | arg (name : String)
  /-- An argument read as a type, with an optional fallback for an absent or null one. -/
  | argAs (name : String) (kind : ArgKind) (fallback : Option Json)
  /-- The paths of the selected subfields, as strings. -/
  | selected
  /-- Whether a dotted path is selected below. -/
  | has (path : String)
  /-- The object type, field and response path, as a string. -/
  | path
  /-- The request metadata under a name, as strings. -/
  | metadata (name : String)
  /-- Reads the parent as a type it never is. -/
  | downcast
  /-- Panics with a message. -/
  | panic (message : String)

namespace Resolve

/-- What a recipe resolves to in a context. -/
def run (r : Resolve) (rc : ResolverContext) : Except Failure FieldValue :=
  let text (s : String) : Except Failure FieldValue := .ok (FieldValue.ofValue (.str s))
  let strings (ss : List String) : Except Failure FieldValue :=
    .ok (FieldValue.ofList (ss.map fun s => FieldValue.ofValue (.str s)))
  match r with
  | .parent key =>
    match parentEntry rc.parent key with
    | some v => (dataValue v).mapError Failure.error
    | none => .ok FieldValue.none
  | .const data => (dataValue data).mapError Failure.error
  | .args => text (Value.map rc.arguments).describe
  | .arg name => .ok (argumentValue ((Value.lookup rc.arguments name).getD .null))
  | .argAs name kind fallback =>
    let read := match fallback.bind kind.decode? with
      | some fb => rc.argOrWith kind.direct? kind.decode? name fb
      | none => rc.argWith kind.direct? kind.decode? name
    read.mapError fun e => Failure.fail e.message
  | .selected => rc.selectedFieldNames >>= strings
  | .has p => (rc.hasSelectedField p).map fun b => FieldValue.ofValue (.bool b)
  | .path =>
    text (rc.objectType ++ "." ++ rc.field ++ " " ++ Json.render rc.path.toJson)
  | .metadata name => strings (rc.metadata.get name)
  | .downcast =>
    .error (.fail (DowncastError.message ⟨expectedParent, rc.parentTypeName, rc.path⟩))
  | .panic message => .error (.panic message)

/-- The resolver of a recipe. -/
def resolver {σ : Type} (r : Resolve) : Resolver σ := Resolver.ofExcept r.run

end Resolve

end GraphWeave.Recipe
