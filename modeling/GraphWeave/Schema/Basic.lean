import GraphWeave.TypeRef
import GraphWeave.Value.Basic

/-!
The schema model: named types with their fields, arguments, enum values and input fields, directive
definitions, and the names of the three root operation types.
-/

namespace GraphWeave

/-- The kind of a named type. -/
inductive TypeKind where
  | scalar
  | object
  | interface
  | union
  | enum
  | inputObject
deriving DecidableEq, Repr, Inhabited

namespace TypeKind

/-- The kind's name in introspection spelling. -/
def name : TypeKind → String
  | .scalar => "SCALAR"
  | .object => "OBJECT"
  | .interface => "INTERFACE"
  | .union => "UNION"
  | .enum => "ENUM"
  | .inputObject => "INPUT_OBJECT"

/-- Reads a kind from its introspection spelling. -/
def ofName? : String → Option TypeKind
  | "SCALAR" => some .scalar
  | "OBJECT" => some .object
  | "INTERFACE" => some .interface
  | "UNION" => some .union
  | "ENUM" => some .enum
  | "INPUT_OBJECT" => some .inputObject
  | _ => none

/-- Kinds whose values may be given as arguments. -/
def isInput : TypeKind → Bool
  | .scalar | .enum | .inputObject => true
  | _ => false

/-- Kinds whose values may be returned by fields. -/
def isOutput : TypeKind → Bool
  | .inputObject => false
  | _ => true

end TypeKind

namespace Schema

/-- An argument or an input field. A default of `none` means there is none. -/
structure InputValue where
  name : String
  type : TypeRef
  description : String := ""
  default : Option Value := none
  /-- The deprecation reason, if deprecated; an empty reason is a bare deprecation. -/
  deprecation : Option String := none
deriving Repr, Inhabited

/-- A field of an object or interface type. -/
structure Field where
  name : String
  type : TypeRef
  description : String := ""
  arguments : List InputValue := []
  /-- Whether the field is resolved in the batch of its depth. -/
  async : Bool := false
  deprecation : Option String := none
deriving Repr, Inhabited

/-- A value of an enum type. -/
structure EnumValue where
  name : String
  description : String := ""
  deprecation : Option String := none
deriving Repr, Inhabited

/-- A named type. Which lists are used depends on the kind. -/
structure NamedType where
  name : String
  kind : TypeKind
  description : String := ""
  fields : List Field := []
  interfaces : List String := []
  possibleTypes : List String := []
  enumValues : List EnumValue := []
  inputFields : List InputValue := []
  specifiedBy : Option String := none
  oneOf : Bool := false
  builtin : Bool := false
deriving Repr, Inhabited

/-- A directive definition. -/
structure Directive where
  name : String
  description : String := ""
  locations : List String := []
  arguments : List InputValue := []
  repeatable : Bool := false
  builtin : Bool := false
deriving Repr, Inhabited

namespace NamedType

/-- The first field of a name. -/
def field? (t : NamedType) (name : String) : Option Field := t.fields.find? (·.name == name)

/-- The first input field of a name. -/
def inputField? (t : NamedType) (name : String) : Option InputValue :=
  t.inputFields.find? (·.name == name)

/-- Whether the enum has a value of this name. -/
def hasEnumValue (t : NamedType) (name : String) : Bool := t.enumValues.any (·.name == name)

/-- Adds an interface unless listed. -/
def addInterface (t : NamedType) (name : String) : NamedType :=
  if t.interfaces.contains name then t else { t with interfaces := t.interfaces ++ [name] }

/-- Adds a possible type unless listed. -/
def addPossibleType (t : NamedType) (name : String) : NamedType :=
  if t.possibleTypes.contains name then t
  else { t with possibleTypes := t.possibleTypes ++ [name] }

end NamedType

/-- The first argument of a name. -/
def Field.argument? (f : Field) (name : String) : Option InputValue :=
  f.arguments.find? (·.name == name)

end Schema

/-- A schema: its types and directives by name, root operation type names (empty when
absent) and a description. -/
structure Schema where
  query : String := ""
  mutation : String := ""
  subscription : String := ""
  types : List Schema.NamedType := []
  directives : List Schema.Directive := []
  description : String := ""
deriving Repr, Inhabited

namespace Schema

/-- The built-in scalars. -/
def builtinTypes : List NamedType :=
  let scalar (name description : String) : NamedType :=
    { name, kind := .scalar, description, builtin := true }
  [scalar "String"
    "The `String` scalar type represents textual data, represented as UTF-8 character sequences.",
   scalar "Int" "The `Int` scalar type represents non-fractional signed whole numeric values.",
   scalar "Float" "The `Float` scalar type represents signed double-precision fractional values.",
   scalar "Boolean" "The `Boolean` scalar type represents `true` or `false`.",
   scalar "ID"
    ("The `ID` scalar type represents a unique identifier, often used to refetch an object " ++
      "or as a key for caching.")]

/-- The built-in directives. -/
def builtinDirectives : List Directive :=
  let condition (name description argument : String) : Directive :=
    { name, description, builtin := true
      locations := ["FIELD", "FRAGMENT_SPREAD", "INLINE_FRAGMENT"]
      arguments := [{ name := "if", type := .nonNull (.named "Boolean"), description := argument }] }
  [condition "include"
    "Directs the executor to include this field or fragment only when the `if` argument is true."
    "Included when true.",
   condition "skip"
    "Directs the executor to skip this field or fragment when the `if` argument is true."
    "Skipped when true.",
   { name := "deprecated", builtin := true
     description := "Marks an element of a GraphQL schema as no longer supported."
     locations := ["FIELD_DEFINITION", "ARGUMENT_DEFINITION", "INPUT_FIELD_DEFINITION", "ENUM_VALUE"]
     arguments := [{ name := "reason", type := .named "String"
                     description := "Explains why this element was deprecated."
                     default := some (.str "No longer supported") }] },
   { name := "oneOf", builtin := true, locations := ["INPUT_OBJECT"]
     description := "Indicates exactly one field must be supplied and this field must not be `null`." },
   { name := "specifiedBy", builtin := true, locations := ["SCALAR"]
     description := "Exposes a URL that specifies the behavior of this scalar."
     arguments := [{ name := "url", type := .nonNull (.named "String")
                     description := "The URL that specifies the behavior of this scalar." }] }]

/-- Whether a name is that of a built-in scalar. -/
def isBuiltinTypeName (name : String) : Bool := builtinTypes.any (·.name == name)

/-- An empty schema carrying the built-in scalars and directives. -/
def withBuiltins (description : String) : Schema :=
  { types := builtinTypes, directives := builtinDirectives, description }

/-- The type of a name. -/
def type? (s : Schema) (name : String) : Option NamedType := s.types.find? (·.name == name)

/-- Adds a type, replacing the one of its name in its place. -/
def addType (s : Schema) (t : NamedType) : Schema :=
  if s.types.any (·.name == t.name) then
    { s with types := s.types.map fun u => if u.name == t.name then t else u }
  else { s with types := s.types ++ [t] }

/-- Replaces a type of a name by a function of it; nothing when there is none. -/
def modifyType (s : Schema) (name : String) (f : NamedType → NamedType) : Schema :=
  { s with types := s.types.map fun u => if u.name == name then f u else u }

/-- Adds a directive, replacing the one of its name. -/
def addDirective (s : Schema) (d : Directive) : Schema :=
  if s.directives.any (·.name == d.name) then
    { s with directives := s.directives.map fun e => if e.name == d.name then d else e }
  else { s with directives := s.directives ++ [d] }

/-- The query root type. -/
def queryType? (s : Schema) : Option NamedType := s.type? s.query

/-- The mutation root type. -/
def mutationType? (s : Schema) : Option NamedType := s.type? s.mutation

/-- The subscription root type. -/
def subscriptionType? (s : Schema) : Option NamedType := s.type? s.subscription

/-- Whether an object of type `object` may stand where `abstract` is expected: the same type,
a member of the union, or an implementation of the interface. -/
def isPossibleType (s : Schema) (abstract object : String) : Bool :=
  if abstract == object then true
  else
    match s.type? abstract with
    | some t =>
      match t.kind with
      | .union => t.possibleTypes.contains object
      | .interface =>
        match s.type? object with
        | some o => o.interfaces.contains abstract
        | none => false
      | _ => false
    | none => false

end Schema

end GraphWeave
