import GraphWeave.Proofs.Definition.BuildLog

/-!
Well-formed definitions, stated over the definitions alone: distinct free names, distinct members,
references to defined types of the right kind, resolvers, and interfaces implemented.
-/

namespace GraphWeave

namespace Definition

variable {σ : Type}

/-- The kind of type a definition defines. -/
def kind : Definition σ → TypeKind
  | .object _ => .object
  | .interface _ => .interface
  | .union _ => .union
  | .enum _ => .enum
  | .inputObject _ => .inputObject
  | .scalar _ => .scalar

/-- The fields of an object or an interface. -/
def outputFields : Definition σ → List (FieldDef σ)
  | .object o => o.fields
  | .interface i => i.fields
  | _ => []

/-- The interfaces an object or an interface declares it implements. -/
def implements : Definition σ → List String
  | .object o => o.interfaces
  | .interface i => i.interfaces
  | _ => []

/-- The fields of an input object. -/
def inputFields : Definition σ → List Schema.InputValue
  | .inputObject io => io.fields
  | _ => []

/-- The members of a union. -/
def unionMembers : Definition σ → List String
  | .union u => u.members
  | _ => []

/-- A type has members: fields, values or union members; a scalar needs none. -/
def HasMembers : Definition σ → Prop
  | .object o => o.fields ≠ []
  | .interface i => i.fields ≠ []
  | .union u => u.members ≠ []
  | .enum e => e.values ≠ []
  | .inputObject io => io.fields ≠ []
  | .scalar _ => True

/-- The members of a type have distinct names, and no field name is reserved. -/
def DistinctMembers : Definition σ → Prop
  | .object o => (o.fields.map (·.name)).Nodup ∧ ∀ f ∈ o.fields, f.name.startsWith "__" = false
  | .interface i => (i.fields.map (·.name)).Nodup ∧ ∀ f ∈ i.fields, f.name.startsWith "__" = false
  | .enum e => (e.values.map (·.name)).Nodup
  | .inputObject io => (io.fields.map (·.name)).Nodup
  | _ => True

/-- Every field of an object has a resolver. -/
def Resolved : Definition σ → Prop
  | .object o => ∀ f ∈ o.fields, f.resolver.isSome
  | _ => True

end Definition

namespace SchemaBuilder

variable {σ : Type} (b : SchemaBuilder σ)

/-- The names of the definitions are distinct, and none is reserved or built in. -/
structure FreshNames : Prop where
  distinct : (b.definitions.map (·.name)).Nodup
  unreserved : ∀ d ∈ b.definitions, d.name.startsWith "__" = false
  notBuiltin : ∀ d ∈ b.definitions, Schema.isBuiltinTypeName d.name = false

/-- A name of a type fields may return: a built-in scalar, or a definition that is not an input
object. -/
def DefinesOutput (name : String) : Prop :=
  Schema.isBuiltinTypeName name = true ∨ ∃ d ∈ b.definitions, d.name = name ∧ d.kind.isOutput = true

/-- A name of a type arguments may take: a built-in scalar, a scalar, an enum or an input
object. -/
def DefinesInput (name : String) : Prop :=
  Schema.isBuiltinTypeName name = true ∨ ∃ d ∈ b.definitions, d.name = name ∧ d.kind.isInput = true

/-- A name of a defined object type. -/
def DefinesObject (name : String) : Prop :=
  ∃ d ∈ b.definitions, d.name = name ∧ d.kind = .object

/-- An argument or input field whose type is an input type, and whose enum literal default, if
any, is a value of the enum of that name. -/
def AcceptsInput (iv : Schema.InputValue) : Prop :=
  b.DefinesInput iv.type.namedType ∧
    ∀ lit, iv.default = some (.enumLiteral lit) →
      ∀ e, .enum e ∈ b.definitions → e.name = iv.type.namedType → lit ∈ e.values.map (·.name)

/-- `object` may stand for `abstract`: it is a member of the union of that name, or it declares
that it implements the interface of that name. -/
def PossibleType (abstract object : String) : Prop :=
  (∃ u, .union u ∈ b.definitions ∧ u.name = abstract ∧ object ∈ u.members) ∨
    ((∃ d ∈ b.definitions, d.name = abstract ∧ d.kind = .interface) ∧
      ∃ d ∈ b.definitions, d.name = object ∧ abstract ∈ d.implements)

/-- A field of type `got` may stand for an interface field of type `want`: non-null where the
interface demands it, a list for a list, and the same named type or one that may stand for it. -/
inductive Implements : TypeRef → TypeRef → Prop
  | nonNull {got want : TypeRef} : Implements got want → Implements (.nonNull got) (.nonNull want)
  | narrow {got want : TypeRef} : want.isNonNull = false → Implements got want →
      Implements (.nonNull got) want
  | list {got want : TypeRef} : Implements got want → Implements (.list got) (.list want)
  | named {got want : String} : got = want ∨ b.PossibleType want got →
      Implements (.named got) (.named want)

/-- The definitions a schema is built from, and its roots, are well formed. -/
structure WellFormed : Prop extends b.FreshNames where
  hasMembers : ∀ d ∈ b.definitions, d.HasMembers
  distinctMembers : ∀ d ∈ b.definitions, d.DistinctMembers
  resolved : ∀ d ∈ b.definitions, d.Resolved
  outputTypes : ∀ d ∈ b.definitions, ∀ f ∈ d.outputFields, b.DefinesOutput f.type.namedType
  argumentTypes : ∀ d ∈ b.definitions, ∀ f ∈ d.outputFields, ∀ a ∈ f.arguments, b.AcceptsInput a
  inputFieldTypes : ∀ d ∈ b.definitions, ∀ iv ∈ d.inputFields, b.AcceptsInput iv
  unionMembers : ∀ d ∈ b.definitions, ∀ m ∈ d.unionMembers, b.DefinesObject m
  implementations : ∀ d ∈ b.definitions, ∀ i ∈ d.implements,
    ∃ e ∈ b.definitions, e.name = i ∧ e.kind = .interface ∧
      ∀ want ∈ e.outputFields, ∃ got ∈ d.outputFields, got.name = want.name ∧
        b.Implements got.type want.type
  queryNamed : b.query ≠ ""
  roots : ∀ name ∈ [b.query, b.mutation, b.subscription], name ≠ "" → b.DefinesObject name

end SchemaBuilder

namespace Schema.NamedType

/-- Declaring interfaces one by one lists each once and changes nothing else. -/
theorem foldl_addInterface (t : NamedType) (names : List String) :
    ∃ listed, names.foldl addInterface t = { t with interfaces := listed } ∧
      ∀ x, x ∈ listed ↔ x ∈ t.interfaces ∨ x ∈ names := by
  induction names generalizing t with
  | nil => exact ⟨t.interfaces, rfl, by simp⟩
  | cons n rest ih =>
    obtain ⟨listed, eq, mem⟩ := ih (t.addInterface n)
    refine ⟨listed, ?_, fun x => ?_⟩
    · rw [List.foldl_cons, eq]
      unfold addInterface
      split <;> rfl
    · rw [mem x]
      unfold addInterface
      split
      · rename_i listedAlready
        simp only [List.contains_iff_mem] at listedAlready
        constructor
        · rintro (h | h)
          · exact .inl h
          · exact .inr (List.mem_cons_of_mem _ h)
        · rintro (h | h)
          · exact .inl h
          · rcases List.mem_cons.mp h with rfl | h
            · exact .inl listedAlready
            · exact .inr h
      · simp only [List.mem_append, List.mem_cons]
        tauto

/-- Adding possible types one by one lists each once and changes nothing else. -/
theorem foldl_addPossibleType (t : NamedType) (names : List String) :
    ∃ listed, names.foldl addPossibleType t = { t with possibleTypes := listed } ∧
      ∀ x, x ∈ listed ↔ x ∈ t.possibleTypes ∨ x ∈ names := by
  induction names generalizing t with
  | nil => exact ⟨t.possibleTypes, rfl, by simp⟩
  | cons n rest ih =>
    obtain ⟨listed, eq, mem⟩ := ih (t.addPossibleType n)
    refine ⟨listed, ?_, fun x => ?_⟩
    · rw [List.foldl_cons, eq]
      unfold addPossibleType
      split <;> rfl
    · rw [mem x]
      unfold addPossibleType
      split
      · rename_i listedAlready
        simp only [List.contains_iff_mem] at listedAlready
        constructor
        · rintro (h | h)
          · exact .inl h
          · exact .inr (List.mem_cons_of_mem _ h)
        · rintro (h | h)
          · exact .inl h
          · rcases List.mem_cons.mp h with rfl | h
            · exact .inl listedAlready
            · exact .inr h
      · simp only [List.mem_append, List.mem_cons]
        tauto

theorem field?_snoc_eq_none (t : NamedType) (f : Field) (name : String) :
    ({ t with fields := t.fields ++ [f] } : NamedType).field? name = none ↔
      t.field? name = none ∧ f.name ≠ name := by
  simp [field?, List.find?_append, List.find?_eq_none]

theorem inputField?_snoc_eq_none (t : NamedType) (iv : InputValue) (name : String) :
    ({ t with inputFields := t.inputFields ++ [iv] } : NamedType).inputField? name = none ↔
      t.inputField? name = none ∧ iv.name ≠ name := by
  simp [inputField?, List.find?_append, List.find?_eq_none]

theorem hasEnumValue_snoc (t : NamedType) (v : EnumValue) (name : String) :
    ({ t with enumValues := t.enumValues ++ [v] } : NamedType).hasEnumValue name = false ↔
      t.hasEnumValue name = false ∧ v.name ≠ name := by
  simp only [hasEnumValue, List.any_append, List.any_cons, List.any_nil, Bool.or_false,
    Bool.or_eq_false_iff, beq_eq_false_iff_ne, ne_eq]

end Schema.NamedType

namespace SchemaBuilder

variable {σ : Type}

open Schema

/-! ### The members of one definition -/

/-- Adding fields raises nothing exactly when their names are distinct, new to the type and not
reserved, and each has a resolver where one is needed. -/
theorem fieldsAdded_clean_iff (kind : String) (needsResolver : Bool) (t : NamedType)
    (fs : List (FieldDef σ)) :
    (fieldsAdded kind needsResolver t fs).1 = [] ↔
      (fs.map (·.name)).Nodup ∧ (∀ f ∈ fs, t.field? f.name = none) ∧
        (∀ f ∈ fs, f.name.startsWith "__" = false) ∧
        (needsResolver = true → ∀ f ∈ fs, f.resolver.isSome) := by
  induction fs generalizing t with
  | nil => simp [fieldsAdded]
  | cons f rest ih =>
    unfold fieldsAdded
    by_cases reserved : f.name.startsWith "__" = true
    · simp only [reserved, if_true, reduceCtorEq, false_iff]
      rintro ⟨-, -, unreserved, -⟩
      rw [unreserved f (by simp)] at reserved
      exact Bool.false_ne_true reserved
    by_cases taken : (t.field? f.name).isSome = true
    · simp only [reserved, taken, if_true, if_false, Bool.false_eq_true, reduceCtorEq, false_iff]
      rintro ⟨-, fresh, -⟩
      simp [fresh f (by simp)] at taken
    · simp only [reserved, taken, if_false, Bool.false_eq_true, List.append_eq_nil_iff, ih,
        NamedType.field?_snoc_eq_none]
      simp only [Bool.not_eq_true, Option.isSome_eq_false_iff, Option.isNone_iff_eq_none] at reserved taken
      by_cases missing : (needsResolver && f.resolver.isNone) = true
      · simp only [missing, if_true, reduceCtorEq, false_and, false_iff]
        rintro ⟨-, -, -, resolved⟩
        simp only [Bool.and_eq_true, Option.isNone_iff_eq_none] at missing
        simpa [missing.2] using resolved missing.1 f (by simp)
      · simp only [missing, if_false, Bool.false_eq_true, true_and]
        simp only [Bool.and_eq_true, Option.isNone_iff_eq_none, not_and] at missing
        simp only [List.map_cons, List.nodup_cons, List.mem_map, List.forall_mem_cons, reserved,
          taken, true_and]
        constructor
        · rintro ⟨distinct, fresh, unreserved, resolved⟩
          have notRest : ¬ ∃ g ∈ rest, g.name = f.name := by
            rintro ⟨g, mem, same⟩
            exact (fresh g mem).2 (same ▸ rfl)
          refine ⟨⟨notRest, distinct⟩, fun g mem => (fresh g mem).1, unreserved,
            fun needs => ⟨?_, resolved needs⟩⟩
          exact Option.isSome_iff_ne_none.mpr (missing needs)
        · rintro ⟨⟨notRest, distinct⟩, fresh, unreserved, resolved⟩
          exact ⟨distinct, fun g mem => ⟨fresh g mem, fun same => notRest ⟨g, mem, same.symm⟩⟩,
            unreserved, fun needs => (resolved needs).2⟩

/-- The type built by adding fields carries the fields kept. -/
theorem fieldsAdded_type (kind : String) (needsResolver : Bool) (t : NamedType)
    (fs : List (FieldDef σ)) :
    (fieldsAdded kind needsResolver t fs).2.1 =
      { t with fields := t.fields ++ (fieldsAdded kind needsResolver t fs).2.2.map FieldDef.toSchema } := by
  induction fs generalizing t with
  | nil => simp [fieldsAdded]
  | cons f rest ih =>
    unfold fieldsAdded
    split
    · exact ih t
    split
    · exact ih t
    · simp only
      rw [ih]
      simp

/-- Adding fields that raise nothing keeps them all. -/
theorem fieldsAdded_kept (kind : String) (needsResolver : Bool) (t : NamedType)
    (fs : List (FieldDef σ)) (clean : (fieldsAdded kind needsResolver t fs).1 = []) :
    (fieldsAdded kind needsResolver t fs).2.2 = fs := by
  induction fs generalizing t with
  | nil => rfl
  | cons f rest ih =>
    unfold fieldsAdded at clean ⊢
    split at clean
    · simp at clean
    split at clean
    · simp at clean
    · rename_i reserved taken
      simp only [List.append_eq_nil_iff] at clean
      rw [if_neg reserved, if_neg taken]
      simp [ih _ clean.2]

/-- Adding enum values raises nothing exactly when their names are distinct and new. -/
theorem enumValuesAdded_clean_iff (t : NamedType) (vs : List EnumValue) :
    (enumValuesAdded t vs).1 = [] ↔
      (vs.map (·.name)).Nodup ∧ ∀ v ∈ vs, t.hasEnumValue v.name = false := by
  induction vs generalizing t with
  | nil => simp [enumValuesAdded]
  | cons v rest ih =>
    unfold enumValuesAdded
    split
    · rename_i taken
      simp only [reduceCtorEq, false_iff, not_and]
      intro _ fresh
      simp [fresh v (by simp)] at taken
    · rename_i fresh
      rw [ih]
      simp only [NamedType.hasEnumValue_snoc, List.map_cons, List.nodup_cons, List.mem_map,
        List.forall_mem_cons, Bool.not_eq_true] at fresh ⊢
      constructor
      · rintro ⟨distinct, others⟩
        have notRest : ¬ ∃ w ∈ rest, w.name = v.name := by
          rintro ⟨w, mem, same⟩
          exact (others w mem).2 (same ▸ rfl)
        exact ⟨⟨notRest, distinct⟩, fresh, fun w mem => (others w mem).1⟩
      · rintro ⟨⟨notRest, distinct⟩, -, others⟩
        exact ⟨distinct, fun w mem => ⟨others w mem, fun same => notRest ⟨w, mem, same.symm⟩⟩⟩

theorem enumValuesAdded_type (t : NamedType) (vs : List EnumValue)
    (clean : (enumValuesAdded t vs).1 = []) :
    (enumValuesAdded t vs).2 = { t with enumValues := t.enumValues ++ vs } := by
  induction vs generalizing t with
  | nil => simp [enumValuesAdded]
  | cons v rest ih =>
    unfold enumValuesAdded at clean ⊢
    split at clean
    · simp at clean
    · rename_i fresh
      rw [if_neg fresh, ih _ clean]
      simp

/-- Adding input fields raises nothing exactly when their names are distinct and new. -/
theorem inputFieldsAdded_clean_iff (t : NamedType) (fs : List InputValue) :
    (inputFieldsAdded t fs).1 = [] ↔
      (fs.map (·.name)).Nodup ∧ ∀ f ∈ fs, t.inputField? f.name = none := by
  induction fs generalizing t with
  | nil => simp [inputFieldsAdded]
  | cons f rest ih =>
    unfold inputFieldsAdded
    split
    · rename_i taken
      simp only [reduceCtorEq, false_iff, not_and]
      intro _ fresh
      simp [fresh f (by simp)] at taken
    · rename_i fresh
      rw [ih]
      simp only [NamedType.inputField?_snoc_eq_none, List.map_cons, List.nodup_cons, List.mem_map,
        List.forall_mem_cons, Bool.not_eq_true, Option.isSome_eq_false_iff,
        Option.isNone_iff_eq_none] at fresh ⊢
      constructor
      · rintro ⟨distinct, others⟩
        have notRest : ¬ ∃ g ∈ rest, g.name = f.name := by
          rintro ⟨g, mem, same⟩
          exact (others g mem).2 (same ▸ rfl)
        exact ⟨⟨notRest, distinct⟩, fresh, fun g mem => (others g mem).1⟩
      · rintro ⟨⟨notRest, distinct⟩, -, others⟩
        exact ⟨distinct, fun g mem => ⟨others g mem, fun same => notRest ⟨g, mem, same.symm⟩⟩⟩

theorem inputFieldsAdded_type (t : NamedType) (fs : List InputValue)
    (clean : (inputFieldsAdded t fs).1 = []) :
    (inputFieldsAdded t fs).2 = { t with inputFields := t.inputFields ++ fs } := by
  induction fs generalizing t with
  | nil => simp [inputFieldsAdded]
  | cons f rest ih =>
    unfold inputFieldsAdded at clean ⊢
    split at clean
    · simp at clean
    · rename_i fresh
      rw [if_neg fresh, ih _ clean]
      simp

end SchemaBuilder

theorem find?_key_eq_some_iff {α : Type} (key : α → String) {l : List α}
    (distinct : (l.map key).Nodup) (k : String) (x : α) :
    l.find? (key · == k) = some x ↔ x ∈ l ∧ key x = k := by
  constructor
  · intro found
    exact ⟨List.mem_of_find?_eq_some found, by simpa using List.find?_some found⟩
  · rintro ⟨mem, rfl⟩
    have present : (l.find? (key · == key x)).isSome := List.find?_isSome.mpr ⟨x, mem, by simp⟩
    obtain ⟨y, found⟩ := Option.isSome_iff_exists.mp present
    have same : key y = key x := by simpa using List.find?_some found
    rw [found, List.inj_on_of_nodup_map distinct (List.mem_of_find?_eq_some found) mem same]

/-! ### The type a clean definition adds -/

namespace Definition

open SchemaBuilder Schema

variable {σ : Type}

theorem added_object (o : ObjectDef σ) (clean : (Definition.object o).added.1 = []) :
    ∃ listed, (Definition.object o).added.2 =
        { name := o.name, kind := .object, description := o.description,
          fields := o.fields.map FieldDef.toSchema, interfaces := listed } ∧
      ∀ x, x ∈ listed ↔ x ∈ o.interfaces := by
  simp only [added, List.append_eq_nil_iff] at clean ⊢
  obtain ⟨listed, eq, mem⟩ := NamedType.foldl_addInterface
    (fieldsAdded "object" true { name := o.name, kind := .object, description := o.description }
      o.fields).2.1 o.interfaces
  refine ⟨listed, ?_, by simpa [fieldsAdded_type] using mem⟩
  rw [eq, fieldsAdded_type, fieldsAdded_kept _ _ _ _ clean.1]
  rfl

theorem added_interface (i : InterfaceDef σ) (clean : (Definition.interface i).added.1 = []) :
    ∃ listed, (Definition.interface i).added.2 =
        { name := i.name, kind := .interface, description := i.description,
          fields := i.fields.map FieldDef.toSchema, interfaces := listed } ∧
      ∀ x, x ∈ listed ↔ x ∈ i.interfaces := by
  simp only [added, List.append_eq_nil_iff] at clean ⊢
  obtain ⟨listed, eq, mem⟩ := NamedType.foldl_addInterface
    (fieldsAdded "interface" false { name := i.name, kind := .interface, description := i.description }
      i.fields).2.1 i.interfaces
  refine ⟨listed, ?_, by simpa [fieldsAdded_type] using mem⟩
  rw [eq, fieldsAdded_type, fieldsAdded_kept _ _ _ _ clean.1]
  rfl

theorem added_union (u : UnionDef) :
    ∃ listed, (Definition.union u : Definition σ).added.2 =
        { name := u.name, kind := .union, description := u.description, possibleTypes := listed } ∧
      ∀ x, x ∈ listed ↔ x ∈ u.members := by
  obtain ⟨listed, eq, mem⟩ := NamedType.foldl_addPossibleType
    { name := u.name, kind := .union, description := u.description } u.members
  exact ⟨listed, eq, by simpa using mem⟩

theorem added_enum (e : EnumDef) (clean : (Definition.enum e : Definition σ).added.1 = []) :
    (Definition.enum e : Definition σ).added.2 =
      { name := e.name, kind := .enum, description := e.description, enumValues := e.values } := by
  simp only [added, List.append_eq_nil_iff] at clean ⊢
  rw [enumValuesAdded_type _ _ clean.1]
  rfl

theorem added_inputObject (io : InputObjectDef)
    (clean : (Definition.inputObject io : Definition σ).added.1 = []) :
    (Definition.inputObject io : Definition σ).added.2 =
      { name := io.name, kind := .inputObject, description := io.description, oneOf := io.oneOf,
        inputFields := io.fields } := by
  simp only [added, List.append_eq_nil_iff] at clean ⊢
  rw [inputFieldsAdded_type _ _ clean.1]
  rfl

variable {d : Definition σ}

/-- A definition added without violations gives its type its own fields, interfaces and input
fields, under its own kind. -/
theorem added_members (clean : d.added.1 = []) :
    d.added.2.kind = d.kind ∧ d.added.2.fields = d.outputFields.map FieldDef.toSchema ∧
      (∀ x, x ∈ d.added.2.interfaces ↔ x ∈ d.implements) ∧ d.added.2.inputFields = d.inputFields := by
  cases d with
  | object o =>
    obtain ⟨listed, eq, mem⟩ := added_object o clean
    rw [eq]
    exact ⟨rfl, rfl, mem, rfl⟩
  | interface i =>
    obtain ⟨listed, eq, mem⟩ := added_interface i clean
    rw [eq]
    exact ⟨rfl, rfl, mem, rfl⟩
  | union u =>
    obtain ⟨listed, eq, -⟩ := added_union (σ := σ) u
    rw [eq]
    exact ⟨rfl, rfl, by simp [implements], rfl⟩
  | enum e =>
    rw [added_enum e clean]
    exact ⟨rfl, rfl, by simp [implements], rfl⟩
  | inputObject io =>
    rw [added_inputObject io clean]
    exact ⟨rfl, rfl, by simp [implements], rfl⟩
  | scalar sc => exact ⟨rfl, rfl, by simp [added, implements], rfl⟩

/-- Adding a definition raises nothing exactly when it has members, with distinct names, and
every object field has a resolver. -/
theorem added_clean_iff (d : Definition σ) :
    d.added.1 = [] ↔ d.HasMembers ∧ d.DistinctMembers ∧ d.Resolved := by
  cases d with
  | object o =>
    simp [added, fieldsAdded_clean_iff, HasMembers, DistinctMembers, Resolved, NamedType.field?]
    tauto
  | interface i =>
    simp [added, fieldsAdded_clean_iff, HasMembers, DistinctMembers, Resolved, NamedType.field?]
    tauto
  | union u => simp [added, HasMembers, DistinctMembers, Resolved]
  | enum e =>
    simp [added, enumValuesAdded_clean_iff, HasMembers, DistinctMembers, Resolved,
      NamedType.hasEnumValue]
    tauto
  | inputObject io =>
    simp [added, inputFieldsAdded_clean_iff, HasMembers, DistinctMembers, Resolved,
      NamedType.inputField?]
    tauto
  | scalar sc => simp [added, HasMembers, DistinctMembers, Resolved]

theorem field?_added (clean : d.added.1 = []) (name : String) (g : Schema.Field) :
    d.added.2.field? name = some g ↔ ∃ f ∈ d.outputFields, f.name = name ∧ g = f.toSchema := by
  have distinct : ((d.outputFields.map FieldDef.toSchema).map (·.name)).Nodup := by
    obtain ⟨-, distinctMembers, -⟩ := (added_clean_iff d).mp clean
    rw [List.map_map]
    cases d <;> simp_all [outputFields, DistinctMembers, Function.comp_def, FieldDef.toSchema]
  rw [NamedType.field?, (added_members clean).2.1, find?_key_eq_some_iff _ distinct]
  constructor
  · rintro ⟨member, named⟩
    obtain ⟨f, mem, rfl⟩ := List.mem_map.mp member
    exact ⟨f, mem, named, rfl⟩
  · rintro ⟨f, mem, named, rfl⟩
    exact ⟨List.mem_map_of_mem mem, named⟩

end Definition

end GraphWeave
