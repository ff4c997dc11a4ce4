import GraphWeave.Definition.Builder
import Mathlib

/-!
The build of a schema as a log of violations.
-/

namespace GraphWeave.Schema

/-- A type with the possible types of an interface forgotten: the build gathers them while it
checks implementations, and nothing it checks or prints reads them. -/
def NamedType.shape (t : NamedType) : NamedType :=
  if t.kind = .interface then { t with possibleTypes := [] } else t

namespace NamedType

@[simp] theorem shape_name (t : NamedType) : t.shape.name = t.name := by
  unfold shape; split <;> rfl
@[simp] theorem shape_kind (t : NamedType) : t.shape.kind = t.kind := by
  unfold shape; split <;> rfl
@[simp] theorem shape_fields (t : NamedType) : t.shape.fields = t.fields := by
  unfold shape; split <;> rfl
@[simp] theorem shape_interfaces (t : NamedType) : t.shape.interfaces = t.interfaces := by
  unfold shape; split <;> rfl
@[simp] theorem shape_enumValues (t : NamedType) : t.shape.enumValues = t.enumValues := by
  unfold shape; split <;> rfl
@[simp] theorem shape_inputFields (t : NamedType) : t.shape.inputFields = t.inputFields := by
  unfold shape; split <;> rfl
@[simp] theorem shape_builtin (t : NamedType) : t.shape.builtin = t.builtin := by
  unfold shape; split <;> rfl
@[simp] theorem shape_oneOf (t : NamedType) : t.shape.oneOf = t.oneOf := by
  unfold shape; split <;> rfl

theorem shape_possibleTypes {t : NamedType} (notInterface : t.kind ≠ .interface) :
    t.shape.possibleTypes = t.possibleTypes := by
  simp [shape, notInterface]

@[simp] theorem shape_shape (t : NamedType) : t.shape.shape = t.shape := by
  unfold shape; split <;> simp [*]

theorem shape_addPossibleType {t : NamedType} (iface : t.kind = .interface) (name : String) :
    (t.addPossibleType name).shape = t.shape := by
  unfold addPossibleType
  split
  · rfl
  · simp [shape, iface]

@[simp] theorem shape_field? (t : NamedType) (name : String) : t.shape.field? name = t.field? name := by
  simp [field?]

@[simp] theorem shape_hasEnumValue (t : NamedType) (name : String) :
    t.shape.hasEnumValue name = t.hasEnumValue name := by
  simp [hasEnumValue]

end NamedType

/-- A schema with the possible types of its interfaces forgotten. -/
def shape (s : Schema) : Schema := { s with types := s.types.map NamedType.shape }

@[simp] theorem shape_types (s : Schema) : s.shape.types = s.types.map NamedType.shape := rfl

theorem type?_shape (s : Schema) (name : String) : s.shape.type? name = (s.type? name).map NamedType.shape := by
  simp [type?, shape]

/-- A schema's types as the build's checks read them. -/
def lookup (s : Schema) (name : String) : Option NamedType := (s.type? name).map NamedType.shape

@[simp] theorem lookup_shape (s : Schema) : s.shape.lookup = s.lookup := by
  funext name
  simp [lookup, type?_shape, Option.map_map, Function.comp_def]

theorem kind_eq_of_shape {t u : NamedType} (same : t.shape = u.shape) : t.kind = u.kind := by
  rw [← NamedType.shape_kind t, same, NamedType.shape_kind]

theorem isPossibleType_congr {s s' : Schema} (same : s.lookup = s'.lookup) (abstract object : String) :
    s.isPossibleType abstract object = s'.isPossibleType abstract object := by
  have sameAbstract := congrFun same abstract
  have sameObject := congrFun same object
  unfold lookup at sameAbstract sameObject
  unfold isPossibleType
  split
  · rfl
  cases found : s.type? abstract <;> cases found' : s'.type? abstract <;>
    simp only [found, found', Option.map_none, Option.map_some, reduceCtorEq, Option.some.injEq]
      at sameAbstract ⊢
  rename_i t t'
  have kind := kind_eq_of_shape sameAbstract
  rw [← kind]
  cases k : t.kind <;> simp only
  case union =>
    have := congrArg NamedType.possibleTypes sameAbstract
    rw [NamedType.shape_possibleTypes (by simp [k]), NamedType.shape_possibleTypes (by simp [← kind, k])]
      at this
    rw [this]
  case interface =>
    cases found : s.type? object <;> cases found' : s'.type? object <;>
      simp only [found, found', Option.map_none, Option.map_some, reduceCtorEq, Option.some.injEq]
        at sameObject ⊢
    rename_i o o'
    rw [← NamedType.shape_interfaces o, sameObject, NamedType.shape_interfaces]

theorem names_shape (s : Schema) : s.shape.types.map (·.name) = s.types.map (·.name) := by
  simp [Function.comp_def]

theorem modifyType_shape {s : Schema} {name : String} {iface : NamedType}
    (distinct : (s.types.map (·.name)).Nodup) (found : s.type? name = some iface)
    (isInterface : iface.kind = .interface) (object : String) :
    (s.modifyType name (·.addPossibleType object)).shape = s.shape := by
  have member : iface ∈ s.types := List.mem_of_find?_eq_some found
  have named : iface.name = name := by simpa using List.find?_some found
  simp only [shape, modifyType, List.map_map, mk.injEq, and_true, true_and]
  refine List.map_congr_left fun u mem => ?_
  by_cases same : u.name = name
  · have : u = iface := List.inj_on_of_nodup_map distinct mem member (same.trans named.symm)
    subst this
    simp [named, NamedType.shape_addPossibleType isInterface]
  · simp [same]

end GraphWeave.Schema

namespace GraphWeave.SchemaBuilder

variable {σ : Type}

open Schema

/-- Adding fields told apart from the build: the violations raised, the type built and the
fields kept. -/
def fieldsAdded (kind : String) (needsResolver : Bool) (t : Schema.NamedType) :
    List (FieldDef σ) → List Violation × Schema.NamedType × List (FieldDef σ)
  | [] => ([], t, [])
  | f :: rest =>
    if f.name.startsWith "__" then
      let r := fieldsAdded kind needsResolver t rest
      (.reservedName "Field" f.name t.name :: r.1, r.2)
    else if (t.field? f.name).isSome then
      let r := fieldsAdded kind needsResolver t rest
      (.duplicateField kind f.name t.name :: r.1, r.2)
    else
      let r := fieldsAdded kind needsResolver { t with fields := t.fields ++ [f.toSchema] } rest
      ((if needsResolver && f.resolver.isNone then [.missingResolver t.name f.name] else []) ++ r.1,
        r.2.1, f :: r.2.2)

/-- Adding enum values told apart from the build. -/
def enumValuesAdded (t : Schema.NamedType) : List Schema.EnumValue → List Violation × Schema.NamedType
  | [] => ([], t)
  | v :: rest =>
    if t.hasEnumValue v.name then
      let r := enumValuesAdded t rest
      (.duplicateField "enum" v.name t.name :: r.1, r.2)
    else enumValuesAdded { t with enumValues := t.enumValues ++ [v] } rest

/-- Adding input fields told apart from the build. -/
def inputFieldsAdded (t : Schema.NamedType) : List Schema.InputValue → List Violation × Schema.NamedType
  | [] => ([], t)
  | f :: rest =>
    if (t.inputField? f.name).isSome then
      let r := inputFieldsAdded t rest
      (.duplicateField "input" f.name t.name :: r.1, r.2)
    else inputFieldsAdded { t with inputFields := t.inputFields ++ [f] } rest


theorem satisfies_congr {s s' : Schema} (same : s.lookup = s'.lookup) :
    BuildState.satisfies s = BuildState.satisfies s' := by
  funext got want
  fun_induction BuildState.satisfies s got want <;>
    simp [BuildState.satisfies, isPossibleType_congr same, *]

theorem fieldsAdded_keeps (kind : String) (needsResolver : Bool) (t : NamedType) (fs : List (FieldDef σ)) :
    (fieldsAdded kind needsResolver t fs).2.1.name = t.name ∧
      (fieldsAdded kind needsResolver t fs).2.1.builtin = t.builtin := by
  induction fs generalizing t with
  | nil => simp [fieldsAdded]
  | cons f rest ih =>
    unfold fieldsAdded
    split
    · exact ih t
    split
    · exact ih t
    · exact ih _

theorem enumValuesAdded_keeps (t : NamedType) (vs : List EnumValue) :
    (enumValuesAdded t vs).2.name = t.name ∧ (enumValuesAdded t vs).2.builtin = t.builtin := by
  induction vs generalizing t with
  | nil => simp [enumValuesAdded]
  | cons v rest ih =>
    unfold enumValuesAdded
    split
    · exact ih t
    · exact ih _

theorem inputFieldsAdded_keeps (t : NamedType) (fs : List InputValue) :
    (inputFieldsAdded t fs).2.name = t.name ∧ (inputFieldsAdded t fs).2.builtin = t.builtin := by
  induction fs generalizing t with
  | nil => simp [inputFieldsAdded]
  | cons f rest ih =>
    unfold inputFieldsAdded
    split
    · exact ih t
    · exact ih _

theorem inputFieldsAdded_oneOf (t : NamedType) (fs : List InputValue) :
    (inputFieldsAdded t fs).2.oneOf = t.oneOf := by
  induction fs generalizing t with
  | nil => rfl
  | cons f rest ih =>
    unfold inputFieldsAdded
    split
    · exact ih t
    · exact ih _

theorem foldl_addInterface_keeps (t : NamedType) (names : List String) :
    (names.foldl NamedType.addInterface t).name = t.name ∧
      (names.foldl NamedType.addInterface t).builtin = t.builtin := by
  induction names generalizing t with
  | nil => simp
  | cons n rest ih =>
    rw [List.foldl_cons, (ih _).1, (ih _).2]
    unfold NamedType.addInterface
    split <;> simp

theorem foldl_addPossibleType_keeps (t : NamedType) (names : List String) :
    (names.foldl NamedType.addPossibleType t).name = t.name ∧
      (names.foldl NamedType.addPossibleType t).builtin = t.builtin := by
  induction names generalizing t with
  | nil => simp
  | cons n rest ih =>
    rw [List.foldl_cons, (ih _).1, (ih _).2]
    unfold NamedType.addPossibleType
    split <;> simp

/-- Adding fields with a repeated name, or a name the type already has, raises a violation. -/
theorem fieldsAdded_repeated (kind : String) (needsResolver : Bool) (t : NamedType)
    (fs : List (FieldDef σ)) (distinct : (t.fields.map (·.name)).Nodup)
    (repeated : ¬ (t.fields.map (·.name) ++ fs.map (·.name)).Nodup) :
    (fieldsAdded kind needsResolver t fs).1 ≠ [] := by
  induction fs generalizing t with
  | nil => simp_all
  | cons f rest ih =>
    unfold fieldsAdded
    split
    · simp
    split
    · simp
    · rename_i fresh
      have absent : ∀ a ∈ t.fields, ¬a.name = f.name := by
        simpa [NamedType.field?, List.find?_eq_none] using fresh
      have distinct' : (({ t with fields := t.fields ++ [f.toSchema] } : NamedType).fields.map
          (·.name)).Nodup := by
        simpa [FieldDef.toSchema, List.nodup_append] using And.intro distinct absent
      have repeated' : ¬ (({ t with fields := t.fields ++ [f.toSchema] } : NamedType).fields.map (·.name) ++
          rest.map (·.name)).Nodup := by
        simpa [FieldDef.toSchema] using repeated
      dsimp only
      intro empty
      exact ih _ distinct' repeated' (List.append_eq_nil_iff.mp empty).2

end GraphWeave.SchemaBuilder

namespace GraphWeave

variable {σ : Type}

open SchemaBuilder in
/-- What adding a definition of a fresh name records, and the schema type it adds. -/
def Definition.added : Definition σ → List Violation × Schema.NamedType
  | .object o =>
    let r := fieldsAdded "object" true { name := o.name, kind := .object, description := o.description } o.fields
    (r.1 ++ (if o.fields.isEmpty then [.emptyType "Object" o.name] else []),
      o.interfaces.foldl Schema.NamedType.addInterface r.2.1)
  | .interface i =>
    let r := fieldsAdded "interface" false
      { name := i.name, kind := .interface, description := i.description } i.fields
    (r.1 ++ (if i.fields.isEmpty then [.emptyType "Interface" i.name] else []),
      i.interfaces.foldl Schema.NamedType.addInterface r.2.1)
  | .union u =>
    ((if u.members.isEmpty then [.emptyType "Union" u.name] else []),
      u.members.foldl Schema.NamedType.addPossibleType
        { name := u.name, kind := .union, description := u.description })
  | .enum e =>
    let r := enumValuesAdded { name := e.name, kind := .enum, description := e.description } e.values
    (r.1 ++ (if e.values.isEmpty then [.emptyType "Enum" e.name] else []), r.2)
  | .inputObject io =>
    let r := inputFieldsAdded
      { name := io.name, kind := .inputObject, description := io.description, oneOf := io.oneOf } io.fields
    (r.1 ++ (if io.fields.isEmpty then [.emptyType "Input" io.name] else []), r.2)
  | .scalar sc =>
    ([], { name := sc.name, kind := .scalar, description := sc.description
           specifiedBy := if sc.specifiedBy.isEmpty then none else some sc.specifiedBy })

namespace Definition

open SchemaBuilder

@[simp] theorem added_name (d : Definition σ) : d.added.2.name = d.name := by
  cases d <;> simp [added, name, fieldsAdded_keeps, enumValuesAdded_keeps, inputFieldsAdded_keeps,
    foldl_addInterface_keeps, foldl_addPossibleType_keeps]

@[simp] theorem added_builtin (d : Definition σ) : d.added.2.builtin = false := by
  cases d <;> simp [added, fieldsAdded_keeps, enumValuesAdded_keeps, inputFieldsAdded_keeps,
    foldl_addInterface_keeps, foldl_addPossibleType_keeps]

theorem added_object_repeated (o : ObjectDef σ) (repeated : ¬ (o.fields.map (·.name)).Nodup) :
    (Definition.object o).added.1 ≠ [] := by
  have := fieldsAdded_repeated "object" true
    { name := o.name, kind := .object, description := o.description } o.fields (by simp) (by simpa using repeated)
  simp [added, this]

end Definition

end GraphWeave

namespace GraphWeave.SchemaBuilder

variable {σ : Type}

open Schema

/-- What checking a field type records: it must name a defined output type. -/
def outputLog (s : Schema) (ref : TypeRef) (owner : String) : List Violation :=
  match s.lookup ref.namedType with
  | none => [.unknownType ref.namedType owner]
  | some t => if t.kind.isOutput then [] else [.notOutputType ref.namedType owner]

/-- What checking an argument or input field records: it must name a defined input type, and an
enum default must be one of the enum's values. -/
def inputLog (s : Schema) (iv : InputValue) (owner : String) : List Violation :=
  match s.lookup iv.type.namedType with
  | none => [.unknownType iv.type.namedType owner]
  | some t =>
    if !t.kind.isInput then [.notInputType iv.type.namedType owner]
    else
      match iv.default with
      | some (.enumLiteral lit) =>
        if t.kind == .enum && !t.hasEnumValue lit then [.enumDefault owner lit iv.type.namedType]
        else []
      | _ => []

/-- What checking a union member records: it must be an object type. -/
def memberLog (s : Schema) (union member : String) : List Violation :=
  match s.lookup member with
  | some mt => if mt.kind == .object then [] else [.unionMember union member]
  | none => [.unionMember union member]

/-- What checking the types a type refers to records. -/
def referencesLog (s : Schema) (t : NamedType) : List Violation :=
  match t.kind with
  | .object | .interface =>
    t.fields.flatMap fun f =>
      outputLog s f.type (t.name ++ "." ++ f.name) ++
        f.arguments.flatMap fun a => inputLog s a (t.name ++ "." ++ f.name ++ "(" ++ a.name ++ ":)")
  | .inputObject => t.inputFields.flatMap fun f => inputLog s f (t.name ++ "." ++ f.name)
  | .union => t.possibleTypes.flatMap fun m => memberLog s t.name m
  | _ => []

/-- What checking one field an interface demands records. -/
def demandLog (s : Schema) (t : NamedType) (ifaceName : String) (want : Schema.Field) : List Violation :=
  match t.field? want.name with
  | none => [.missingInterfaceField t.name want.name ifaceName]
  | some got =>
    if BuildState.satisfies s got.type want.type then []
    else [.interfaceFieldType t.name want.name ifaceName want.type.render got.type.render]

/-- What checking one implemented interface records. -/
def interfaceLog (s : Schema) (t : NamedType) (ifaceName : String) : List Violation :=
  match s.lookup ifaceName with
  | some iface =>
    if iface.kind != .interface then [.notInterface t.name ifaceName]
    else iface.fields.flatMap fun want => demandLog s t ifaceName want
  | none => [.notInterface t.name ifaceName]

/-- What checking the interfaces a type implements records. -/
def implementsLog (s : Schema) (t : NamedType) : List Violation :=
  if t.kind != .object && t.kind != .interface then []
  else t.interfaces.flatMap fun ifaceName => interfaceLog s t ifaceName

/-- What checking one named root records: it must be an object type. -/
def rootLog (s : Schema) (operation name : String) : List Violation :=
  if name.isEmpty then []
  else
    match s.lookup name with
    | some t => if t.kind == .object then [] else [.rootType operation name]
    | none => [.rootType operation name]

/-- What checking the root names records. -/
def rootsLog (s : Schema) (query mutation subscription : String) : List Violation :=
  (if query.isEmpty then [.missingQueryRoot] else []) ++
    (rootLog s "query" query ++ rootLog s "mutation" mutation ++ rootLog s "subscription" subscription)

section Congruence

variable {s s' : Schema}

theorem referencesLog_congr (same : s.lookup = s'.lookup) : referencesLog s = referencesLog s' := by
  funext t
  simp only [referencesLog, outputLog, inputLog, memberLog, same]

theorem implementsLog_congr (same : s.lookup = s'.lookup) : implementsLog s = implementsLog s' := by
  funext t
  simp only [implementsLog, interfaceLog, demandLog, same, satisfies_congr same]

theorem rootsLog_congr (same : s.lookup = s'.lookup) : rootsLog s = rootsLog s' := by
  funext query mutation subscription
  simp only [rootsLog, rootLog, same]

variable (s)

@[simp] theorem referencesLog_shape (t : NamedType) : referencesLog s t.shape = referencesLog s t := by
  unfold referencesLog
  cases kind : t.kind <;> simp [kind, NamedType.shape_possibleTypes]

@[simp] theorem interfaceLog_shape (t : NamedType) (ifaceName : String) :
    interfaceLog s t.shape ifaceName = interfaceLog s t ifaceName := by
  simp [interfaceLog, demandLog]

@[simp] theorem implementsLog_shape (t : NamedType) : implementsLog s t.shape = implementsLog s t := by
  simp [implementsLog]

end Congruence

namespace BuildState

/-- Records violations after those already found. -/
def record (st : BuildState σ) (vs : List Violation) : BuildState σ :=
  { st with violations := st.violations ++ vs.toArray }

@[simp] theorem record_raw (st : BuildState σ) (vs : List Violation) : (st.record vs).raw = st.raw :=
  rfl

@[simp] theorem record_winners (st : BuildState σ) (vs : List Violation) :
    (st.record vs).winners = st.winners := rfl

@[simp] theorem record_violations (st : BuildState σ) (vs : List Violation) :
    (st.record vs).violations.toList = st.violations.toList ++ vs := by
  simp [record]

@[simp] theorem record_nil (st : BuildState σ) : st.record [] = st := by
  simp [record]

@[simp] theorem record_record (st : BuildState σ) (vs ws : List Violation) :
    (st.record vs).record ws = st.record (vs ++ ws) := by
  simp [record]

theorem violate_eq_record (st : BuildState σ) (v : Violation) : st.violate v = st.record [v] := rfl

theorem foldl_record {α : Type} {s : Schema} {step : BuildState σ → α → BuildState σ}
    (log : α → List Violation) (xs : List α) (st : BuildState σ) (start : st.raw = s)
    (each : ∀ st x, st.raw = s → step st x = st.record (log x)) :
    xs.foldl step st = st.record (xs.flatMap log) := by
  induction xs generalizing st with
  | nil => simp
  | cons x rest ih =>
    rw [List.foldl_cons, each st x start, ih _ (by simp [start])]
    simp

theorem foldl_shaped {α : Type} {s : Schema} {step : BuildState σ → α → BuildState σ}
    {log : α → List Violation} (xs : List α) (st : BuildState σ) (start : st.raw.shape = s.shape)
    (each : ∀ st x, st.raw.shape = s.shape →
      (step st x).violations.toList = st.violations.toList ++ log x ∧ (step st x).raw.shape = s.shape) :
    (xs.foldl step st).violations.toList = st.violations.toList ++ xs.flatMap log ∧
      (xs.foldl step st).raw.shape = s.shape := by
  induction xs generalizing st with
  | nil => simp [start]
  | cons x rest ih =>
    obtain ⟨logged, kept⟩ := each st x start
    obtain ⟨logged', kept'⟩ := ih (step st x) kept
    simp [logged', logged, kept']

theorem addFields_eq (st : BuildState σ) (kind : String) (needsResolver : Bool)
    (t : Schema.NamedType) (fs : List (FieldDef σ)) :
    st.addFields kind needsResolver t fs =
      (st.record (fieldsAdded kind needsResolver t fs).1, (fieldsAdded kind needsResolver t fs).2.1,
        (fieldsAdded kind needsResolver t fs).2.2) := by
  induction fs generalizing st t with
  | nil => simp [addFields, fieldsAdded]
  | cons f rest ih =>
    rw [addFields, fieldsAdded]
    by_cases reserved : f.name.startsWith "__" = true
    · simp [reserved, ih, violate_eq_record]
    by_cases repeated : (t.field? f.name).isSome = true
    · simp [reserved, repeated, ih, violate_eq_record]
    · by_cases missing : (needsResolver && f.resolver.isNone) = true
      · simp [reserved, repeated, missing, ih, violate_eq_record]
      · simp [reserved, repeated, missing, ih]

theorem addEnumValues_eq (st : BuildState σ) (t : Schema.NamedType) (vs : List Schema.EnumValue) :
    st.addEnumValues t vs = (st.record (enumValuesAdded t vs).1, (enumValuesAdded t vs).2) := by
  induction vs generalizing st t with
  | nil => simp [addEnumValues, enumValuesAdded]
  | cons v rest ih =>
    rw [addEnumValues, enumValuesAdded]
    split <;> simp [ih, violate_eq_record]

theorem addInputFields_eq (st : BuildState σ) (t : Schema.NamedType) (fs : List Schema.InputValue) :
    st.addInputFields t fs = (st.record (inputFieldsAdded t fs).1, (inputFieldsAdded t fs).2) := by
  induction fs generalizing st t with
  | nil => simp [addInputFields, inputFieldsAdded]
  | cons f rest ih =>
    rw [addInputFields, inputFieldsAdded]
    split <;> simp [ih, violate_eq_record]

/-- Adding a definition of a fresh name records what its members raise and adds its type. -/
theorem add_fresh (st : BuildState σ) (index : Nat) (d : Definition σ)
    (plain : d.name.startsWith "__" = false) (notBuiltin : Schema.isBuiltinTypeName d.name = false)
    (fresh : st.winners.any (·.1 == d.name) = false) :
    (st.add index d).winners = st.winners ++ [(d.name, index)] ∧
      (st.add index d).raw = st.raw.addType d.added.2 ∧
      (st.add index d).violations.toList = st.violations.toList ++ d.added.1 := by
  cases d with
  | object o =>
    simp only [Definition.name] at plain notBuiltin fresh
    simp only [add, Definition.name, plain, notBuiltin, fresh, addFields_eq, Definition.added]
    by_cases empty : o.fields.isEmpty <;> simp [empty, violate_eq_record]
  | interface i =>
    simp only [Definition.name] at plain notBuiltin fresh
    simp only [add, Definition.name, plain, notBuiltin, fresh, addFields_eq, Definition.added]
    by_cases empty : i.fields.isEmpty <;> simp [empty, violate_eq_record]
  | union u =>
    simp only [Definition.name] at plain notBuiltin fresh
    simp only [add, Definition.name, plain, notBuiltin, fresh, Definition.added]
    by_cases empty : u.members.isEmpty <;> simp [empty, violate_eq_record]
  | enum e =>
    simp only [Definition.name] at plain notBuiltin fresh
    simp only [add, Definition.name, plain, notBuiltin, fresh, addEnumValues_eq, Definition.added]
    by_cases empty : e.values.isEmpty <;> simp [empty, violate_eq_record]
  | inputObject io =>
    simp only [Definition.name] at plain notBuiltin fresh
    simp only [add, Definition.name, plain, notBuiltin, fresh, addInputFields_eq, Definition.added]
    by_cases empty : io.fields.isEmpty <;> simp [empty, violate_eq_record]
  | scalar sc =>
    simp only [Definition.name] at plain notBuiltin fresh
    simp [add, Definition.name, plain, notBuiltin, fresh, Definition.added]

theorem add_refused (st : BuildState σ) (index : Nat) (d : Definition σ)
    (refused : d.name.startsWith "__" = true ∨ Schema.isBuiltinTypeName d.name = true ∨
      st.winners.any (·.1 == d.name) = true) :
    ∃ v, st.add index d = st.record [v] := by
  unfold add
  dsimp only
  by_cases reserved : d.name.startsWith "__" = true
  · exact ⟨.reservedName "Type" d.name d.name, by simp [reserved, violate_eq_record]⟩
  by_cases builtin : Schema.isBuiltinTypeName d.name = true
  · exact ⟨.builtinType d.name, by simp [reserved, builtin, violate_eq_record]⟩
  have taken : st.winners.any (·.1 == d.name) = true := by simpa [reserved, builtin] using refused
  exact ⟨.duplicateType d.name, by simp [reserved, builtin, taken, violate_eq_record]⟩

theorem add_grows (st : BuildState σ) (index : Nat) (d : Definition σ) :
    ∃ vs, (st.add index d).violations.toList = st.violations.toList ++ vs := by
  by_cases good : d.name.startsWith "__" = false ∧ Schema.isBuiltinTypeName d.name = false ∧
      st.winners.any (·.1 == d.name) = false
  · exact ⟨_, (add_fresh st index d good.1 good.2.1 good.2.2).2.2⟩
  · obtain ⟨v, refused⟩ := add_refused st index d (by simpa [Bool.not_eq_false, or_iff_not_imp_left] using good)
    exact ⟨[v], by rw [refused, record_violations]⟩

theorem checkOutput_eq (st : BuildState σ) (ref : TypeRef) (owner : String) :
    st.checkOutput ref owner = st.record (outputLog st.raw ref owner) := by
  unfold checkOutput outputLog lookup
  dsimp only
  cases st.raw.type? ref.namedType with
  | none => simp [violate_eq_record]
  | some t => by_cases output : t.kind.isOutput <;> simp [output, violate_eq_record]

theorem checkInput_eq (st : BuildState σ) (iv : InputValue) (owner : String) :
    st.checkInput iv owner = st.record (inputLog st.raw iv owner) := by
  unfold checkInput inputLog lookup
  dsimp only
  cases st.raw.type? iv.type.namedType with
  | none => simp [violate_eq_record]
  | some t =>
    simp only [Option.map_some, NamedType.shape_kind, NamedType.shape_hasEnumValue]
    by_cases input : t.kind.isInput
    · simp only [input, Bool.not_true, Bool.false_eq_true, if_false]
      cases iv.default with
      | none => simp
      | some v =>
        cases v
        case enumLiteral lit =>
          by_cases bad : t.kind = .enum ∧ t.hasEnumValue lit = false <;> simp [bad, violate_eq_record]
        all_goals simp
    · simp [input, violate_eq_record]

theorem checkReferences_eq (st : BuildState σ) (t : NamedType) :
    st.checkReferences t = st.record (referencesLog st.raw t) := by
  unfold checkReferences referencesLog
  cases kind : t.kind <;> simp only
  case scalar | enum => simp
  case union =>
    refine foldl_record _ _ _ rfl fun st' m same => ?_
    simp only [memberLog, lookup, same]
    cases st.raw.type? m with
    | none => simp [violate_eq_record]
    | some mt => by_cases object : mt.kind = .object <;> simp [object, violate_eq_record]
  case inputObject =>
    exact foldl_record _ _ _ rfl fun st' f same => by rw [checkInput_eq, same]
  all_goals
    refine foldl_record _ _ _ rfl fun st' f same => ?_
    rw [checkOutput_eq, foldl_record (s := st.raw) _ _ _ (by simp [same])
      fun st'' a same' => by rw [checkInput_eq, same']]
    simp [same]

theorem checkImplementations_eq (st : BuildState σ) (t : NamedType)
    (distinct : (st.raw.types.map (·.name)).Nodup) :
    (st.checkImplementations t).violations.toList = st.violations.toList ++ implementsLog st.raw t ∧
      (st.checkImplementations t).raw.shape = st.raw.shape := by
  unfold checkImplementations implementsLog
  split
  · simp
  refine foldl_shaped _ _ rfl fun st' ifaceName same => ?_
  have distinct' : (st'.raw.types.map (·.name)).Nodup := by
    rw [← names_shape, same, names_shape]; exact distinct
  have lookups : st.raw.lookup = st'.raw.lookup := by rw [← lookup_shape, ← same, lookup_shape]
  have log : interfaceLog st.raw t ifaceName = interfaceLog st'.raw t ifaceName := by
    simp only [interfaceLog, demandLog, lookups, satisfies_congr lookups]
  rw [log]
  unfold interfaceLog lookup
  cases found : st'.raw.type? ifaceName with
  | none => simp [violate_eq_record, same]
  | some iface =>
    by_cases isInterface : iface.kind = .interface
    · simp only [Option.map_some, NamedType.shape_kind, NamedType.shape_fields, isInterface,
        bne_self_eq_false, Bool.false_eq_true, if_false]
      rw [foldl_record (s := st'.raw) (demandLog st'.raw t ifaceName) iface.fields st' rfl
        fun st'' want same'' => ?_]
      rotate_left
      · unfold demandLog
        cases t.field? want.name with
        | none => rfl
        | some got =>
          by_cases fits : satisfies st'.raw got.type want.type <;> simp [fits, same'', violate_eq_record]
      split
      · simp [modifyType_shape distinct' found isInterface, same]
      · simp [same]
    · simp [isInterface, violate_eq_record, same]

theorem checkRoots_eq (st : BuildState σ) (query mutation subscription : String) :
    st.checkRoots query mutation subscription = st.record (rootsLog st.raw query mutation subscription) := by
  unfold checkRoots
  dsimp only
  rw [foldl_record (s := st.raw) (fun p => rootLog st.raw p.1 p.2) _ _ (by split <;> rfl)
    fun st' p same => ?_]
  · by_cases empty : query.isEmpty <;> simp [empty, rootsLog, violate_eq_record]
  · obtain ⟨operation, name⟩ := p
    unfold rootLog lookup
    by_cases empty : name.isEmpty
    · simp [empty]
    · simp only [empty, Bool.false_eq_true, if_false, same]
      cases st.raw.type? name with
      | none => simp [violate_eq_record]
      | some t => by_cases object : t.kind = .object <;> simp [object, violate_eq_record]

theorem checkType_some (st : BuildState σ) (check : BuildState σ → NamedType → BuildState σ)
    {name : String} {t : NamedType} (found : st.raw.type? name = some t) :
    st.checkType check name = check st t := by
  simp [checkType, found]

end BuildState

end GraphWeave.SchemaBuilder
