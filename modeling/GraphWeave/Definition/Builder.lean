import GraphWeave.Definition.Basic

/-!
Building a schema from definitions, and every reason the build refuses.
-/

namespace GraphWeave

/-- A reason a schema is refused. Each names the type, or other owner, it is about. -/
inductive Violation where
  /-- A type or field name with the reserved `__` prefix; `kind` is `Type` or `Field`. -/
  | reservedName (kind name owner : String)
  | builtinType (name : String)
  | duplicateType (name : String)
  | missingResolver (type field : String)
  /-- A type without members; `kind` is `Object`, `Interface`, `Union`, `Enum` or `Input`. -/
  | emptyType (kind name : String)
  /-- A repeated member; `kind` is `object`, `interface`, `enum` or `input`. -/
  | duplicateField (kind field type : String)
  | unknownType (ref owner : String)
  | notOutputType (ref owner : String)
  | notInputType (ref owner : String)
  | enumDefault (owner value enum : String)
  | unionMember (union member : String)
  | notInterface (type iface : String)
  | missingInterfaceField (type field iface : String)
  | interfaceFieldType (type field iface want got : String)
  | missingQueryRoot
  | rootType (operation name : String)
deriving Repr, Inhabited

namespace Violation

/-- The message of a violation. -/
def message : Violation → String
  | .reservedName kind name _ =>
    kind ++ " name " ++ Quoted.encode name ++ " cannot start with '__' (reserved prefix)"
  | .builtinType name => "Type " ++ Quoted.encode name ++ " redefines a built-in type"
  | .duplicateType name => "Type " ++ Quoted.encode name ++ " is defined more than once"
  | .missingResolver type field => "Field " ++ type ++ "." ++ field ++ " has no resolver"
  | .emptyType kind name => kind ++ " " ++ Quoted.encode name ++ " must define at least one member"
  | .duplicateField kind field type =>
    "Duplicate field " ++ Quoted.encode field ++ " found in " ++ kind ++ " " ++ Quoted.encode type
  | .unknownType ref owner => "Unknown type " ++ Quoted.encode ref ++ " referenced by " ++ owner
  | .notOutputType ref owner =>
    "Type " ++ Quoted.encode ref ++ " used by " ++ owner ++ " is not an output type"
  | .notInputType ref owner =>
    "Type " ++ Quoted.encode ref ++ " used by " ++ owner ++ " is not an input type"
  | .enumDefault owner value enum =>
    "Default value " ++ value ++ " of " ++ owner ++ " does not exist in enum " ++ Quoted.encode enum
  | .unionMember union member =>
    "Union " ++ Quoted.encode union ++ " member " ++ Quoted.encode member ++ " is not an object type"
  | .notInterface type iface =>
    "Type " ++ Quoted.encode type ++ " implements " ++ Quoted.encode iface ++
      " which is not an interface"
  | .missingInterfaceField type field iface =>
    "Type " ++ Quoted.encode type ++ " is missing field " ++ Quoted.encode field ++
      " required by interface " ++ Quoted.encode iface
  | .interfaceFieldType type field iface want got =>
    "Field " ++ type ++ "." ++ field ++ " has type " ++ got ++ " which does not satisfy " ++
      iface ++ "." ++ field ++ " of type " ++ want
  | .missingQueryRoot => "Schema must define a query root type"
  | .rootType operation name =>
    "Root " ++ operation ++ " type " ++ Quoted.encode name ++ " is not a defined object type"

/-- The type or owner a violation is about; empty for a missing query root. -/
def subject : Violation → String
  | .reservedName _ _ owner => owner
  | .builtinType name | .duplicateType name => name
  | .missingResolver type _ => type
  | .emptyType _ name => name
  | .duplicateField _ _ type => type
  | .unknownType _ owner | .notOutputType _ owner | .notInputType _ owner => owner
  | .enumDefault owner _ _ => owner
  | .unionMember union _ => union
  | .notInterface type _ | .missingInterfaceField type _ _ => type
  | .interfaceFieldType type _ _ _ _ => type
  | .missingQueryRoot => ""
  | .rootType _ name => name

end Violation

/-- A refused schema, with every violation in the order found. -/
structure SchemaError where
  violations : List Violation
deriving Repr, Inhabited

/-- `schema violations found:` and one `- message` line per violation. -/
def SchemaError.message (e : SchemaError) : String :=
  "schema violations found:\n" ++ String.join (e.violations.map fun v => "- " ++ v.message ++ "\n")

/-- A built schema: the schema model, the field definitions of each object type, and the custom
scalars. -/
structure ExecutableSchema (σ : Type) where
  raw : Schema
  resolvers : List (String × List (FieldDef σ))
  scalars : List ScalarDef

/-- Definitions to build a schema from, with the root type names (empty when absent) and the
schema's description. -/
structure SchemaBuilder (σ : Type) where
  query : String
  mutation : String := ""
  subscription : String := ""
  description : String := ""
  definitions : List (Definition σ) := []

namespace SchemaBuilder

variable {σ : Type}

/-- Adds a definition. -/
def register (b : SchemaBuilder σ) (d : Definition σ) : SchemaBuilder σ :=
  { b with definitions := b.definitions ++ [d] }

/-- The state of a build: the schema so far, which definition won each name, the field
definitions and scalars kept, and the violations found. -/
structure BuildState (σ : Type) where
  raw : Schema
  winners : List (String × Nat) := []
  resolvers : List (String × List (FieldDef σ)) := []
  scalars : List ScalarDef := []
  violations : Array Violation := #[]

namespace BuildState

/-- Records a violation. -/
def violate (st : BuildState σ) (v : Violation) : BuildState σ :=
  { st with violations := st.violations.push v }

/-- Adds the fields of an object or interface to its schema type, refusing reserved and
repeated names; an object field kept without a resolver is reported as it is kept. The fields
kept are returned too. -/
def addFields (st : BuildState σ) (kind : String) (needsResolver : Bool) (t : Schema.NamedType) :
    List (FieldDef σ) → BuildState σ × Schema.NamedType × List (FieldDef σ)
  | [] => (st, t, [])
  | f :: rest =>
    if f.name.startsWith "__" then
      addFields (st.violate (.reservedName "Field" f.name t.name)) kind needsResolver t rest
    else if (t.field? f.name).isSome then
      addFields (st.violate (.duplicateField kind f.name t.name)) kind needsResolver t rest
    else
      let st := if needsResolver && f.resolver.isNone then
        st.violate (.missingResolver t.name f.name) else st
      let (st, t, kept) :=
        addFields st kind needsResolver { t with fields := t.fields ++ [f.toSchema] } rest
      (st, t, f :: kept)

/-- Adds the values of an enum to its schema type, refusing repeated names. -/
def addEnumValues (st : BuildState σ) (t : Schema.NamedType) :
    List Schema.EnumValue → BuildState σ × Schema.NamedType
  | [] => (st, t)
  | v :: rest =>
    if t.hasEnumValue v.name then
      addEnumValues (st.violate (.duplicateField "enum" v.name t.name)) t rest
    else addEnumValues st { t with enumValues := t.enumValues ++ [v] } rest

/-- Adds the fields of an input object to its schema type, refusing repeated names. -/
def addInputFields (st : BuildState σ) (t : Schema.NamedType) :
    List Schema.InputValue → BuildState σ × Schema.NamedType
  | [] => (st, t)
  | f :: rest =>
    if (t.inputField? f.name).isSome then
      addInputFields (st.violate (.duplicateField "input" f.name t.name)) t rest
    else addInputFields st { t with inputFields := t.inputFields ++ [f] } rest

/-- Adds the definition at an index. -/
def add (st : BuildState σ) (index : Nat) (d : Definition σ) : BuildState σ :=
  let name := d.name
  if name.startsWith "__" then st.violate (.reservedName "Type" name name)
  else if Schema.isBuiltinTypeName name then st.violate (.builtinType name)
  else if st.winners.any (·.1 == name) then st.violate (.duplicateType name)
  else
    let st := { st with winners := st.winners ++ [(name, index)] }
    match d with
    | .object o =>
      let t : Schema.NamedType := { name, kind := .object, description := o.description }
      let (st, t, kept) := st.addFields "object" true t o.fields
      let t := o.interfaces.foldl Schema.NamedType.addInterface t
      let st := if o.fields.isEmpty then st.violate (.emptyType "Object" name) else st
      { st with resolvers := st.resolvers ++ [(name, kept)], raw := st.raw.addType t }
    | .interface i =>
      let t : Schema.NamedType := { name, kind := .interface, description := i.description }
      let (st, t, _) := st.addFields "interface" false t i.fields
      let t := i.interfaces.foldl Schema.NamedType.addInterface t
      let st := if i.fields.isEmpty then st.violate (.emptyType "Interface" name) else st
      { st with raw := st.raw.addType t }
    | .union u =>
      let t : Schema.NamedType := { name, kind := .union, description := u.description }
      let t := u.members.foldl Schema.NamedType.addPossibleType t
      let st := if u.members.isEmpty then st.violate (.emptyType "Union" name) else st
      { st with raw := st.raw.addType t }
    | .enum e =>
      let t : Schema.NamedType := { name, kind := .enum, description := e.description }
      let (st, t) := st.addEnumValues t e.values
      let st := if e.values.isEmpty then st.violate (.emptyType "Enum" name) else st
      { st with raw := st.raw.addType t }
    | .inputObject io =>
      let t : Schema.NamedType :=
        { name, kind := .inputObject, description := io.description, oneOf := io.oneOf }
      let (st, t) := st.addInputFields t io.fields
      let st := if io.fields.isEmpty then st.violate (.emptyType "Input" name) else st
      { st with raw := st.raw.addType t }
    | .scalar sc =>
      let t : Schema.NamedType :=
        { name, kind := .scalar, description := sc.description
          specifiedBy := if sc.specifiedBy.isEmpty then none else some sc.specifiedBy }
      { st with scalars := st.scalars ++ [sc], raw := st.raw.addType t }

/-- Checks that a field type names a defined output type. -/
def checkOutput (st : BuildState σ) (ref : TypeRef) (owner : String) : BuildState σ :=
  let name := ref.namedType
  match st.raw.type? name with
  | none => st.violate (.unknownType name owner)
  | some t => if t.kind.isOutput then st else st.violate (.notOutputType name owner)

/-- Checks that an argument or input field type names a defined input type, and that an enum
default is one of the enum's values. -/
def checkInput (st : BuildState σ) (iv : Schema.InputValue) (owner : String) : BuildState σ :=
  let name := iv.type.namedType
  match st.raw.type? name with
  | none => st.violate (.unknownType name owner)
  | some t =>
    if !t.kind.isInput then st.violate (.notInputType name owner)
    else
      match iv.default with
      | some (.enumLiteral lit) =>
        if t.kind == .enum && !t.hasEnumValue lit then st.violate (.enumDefault owner lit name)
        else st
      | _ => st

/-- Checks the types a definition refers to. -/
def checkReferences (st : BuildState σ) (t : Schema.NamedType) : BuildState σ :=
  match t.kind with
  | .object | .interface =>
    t.fields.foldl (fun st f =>
      let owner := t.name ++ "." ++ f.name
      let st := st.checkOutput f.type owner
      f.arguments.foldl (fun st a => st.checkInput a (owner ++ "(" ++ a.name ++ ":)")) st) st
  | .inputObject => t.inputFields.foldl (fun st f => st.checkInput f (t.name ++ "." ++ f.name)) st
  | .union =>
    t.possibleTypes.foldl (fun st m =>
      match st.raw.type? m with
      | some mt => if mt.kind == .object then st else st.violate (.unionMember t.name m)
      | none => st.violate (.unionMember t.name m)) st
  | _ => st

/-- Whether a field of type `got` may stand for an interface field of type `want`: non-null
where the interface demands it, lists for lists, and the same named type or one of its possible
types. -/
def satisfies (s : Schema) : TypeRef → TypeRef → Bool
  | .nonNull got, .nonNull want => satisfies s got want
  | _, .nonNull _ => false
  | .nonNull got, want => satisfies s got want
  | .list got, .list want => satisfies s got want
  | _, .list _ => false
  | .list _, _ => false
  | .named got, .named want => got == want || s.isPossibleType want got

/-- Checks the interfaces a definition implements. -/
def checkImplementations (st : BuildState σ) (t : Schema.NamedType) : BuildState σ :=
  if t.kind != .object && t.kind != .interface then st
  else
    t.interfaces.foldl (fun st ifaceName =>
      match st.raw.type? ifaceName with
      | some iface =>
        if iface.kind != .interface then st.violate (.notInterface t.name ifaceName)
        else
          let st := iface.fields.foldl (fun st want =>
            match t.field? want.name with
            | none => st.violate (.missingInterfaceField t.name want.name ifaceName)
            | some got =>
              if satisfies st.raw got.type want.type then st
              else st.violate (.interfaceFieldType t.name want.name ifaceName want.type.render
                got.type.render)) st
          if t.kind == .object then
            { st with raw := st.raw.modifyType ifaceName (·.addPossibleType t.name) }
          else st
      | none => st.violate (.notInterface t.name ifaceName)) st

/-- Runs a check on the type of a name, when there is one. -/
def checkType (st : BuildState σ) (check : BuildState σ → Schema.NamedType → BuildState σ)
    (name : String) : BuildState σ :=
  match st.raw.type? name with
  | some t => check st t
  | none => st

/-- Checks the root type names. -/
def checkRoots (st : BuildState σ) (query mutation subscription : String) : BuildState σ :=
  let st := if query.isEmpty then st.violate .missingQueryRoot else st
  [("query", query), ("mutation", mutation), ("subscription", subscription)].foldl
    (fun st (operation, name) =>
      if name.isEmpty then st
      else
        match st.raw.type? name with
        | some t => if t.kind == .object then st else st.violate (.rootType operation name)
        | none => st.violate (.rootType operation name)) st

end BuildState

/-- Validates the definitions and builds the schema, or reports every violation. -/
def finish (b : SchemaBuilder σ) : Except SchemaError (ExecutableSchema σ) :=
  let indexed := b.definitions.zipIdx
  let st : BuildState σ := { raw := Schema.withBuiltins b.description }
  let st := indexed.foldl (fun st p => st.add p.2 p.1) st
  let accepted := indexed.filter fun p => st.winners.contains (p.1.name, p.2)
  let st := accepted.foldl (fun st p => st.checkType BuildState.checkReferences p.1.name) st
  let st := accepted.foldl (fun st p => st.checkType BuildState.checkImplementations p.1.name) st
  let st := st.checkRoots b.query b.mutation b.subscription
  if st.violations.isEmpty then
    .ok ⟨{ st.raw with query := b.query, mutation := b.mutation, subscription := b.subscription },
      st.resolvers, st.scalars⟩
  else .error ⟨st.violations.toList⟩

end SchemaBuilder

end GraphWeave
