import GraphWeave.Proofs.Definition.WellFormed

/-!
The schema a list of definitions declares: the built-in scalars, then the type each definition adds
(`SchemaBuilder.declared`).
-/

namespace GraphWeave

namespace SchemaBuilder

open Schema

variable {σ : Type} (b : SchemaBuilder σ)

/-- The schema a builder's definitions declare: the built-in scalars, then the type of each
definition as adding it gives. -/
def declared : Schema :=
  { Schema.withBuiltins b.description with types := builtinTypes ++ b.definitions.map (·.added.2) }

theorem builtinTypes_scalar : ∀ t ∈ builtinTypes, t.kind = .scalar ∧ t.interfaces = [] := by
  simp [builtinTypes]

variable {b}

theorem type?_declared_of_mem (fresh : b.FreshNames) {d : Definition σ} (mem : d ∈ b.definitions) :
    b.declared.type? d.name = some d.added.2 := by
  have skip : builtinTypes.find? (·.name == d.name) = none := by
    simpa [isBuiltinTypeName, List.find?_eq_none] using fresh.notBuiltin d mem
  have found : b.definitions.find? (·.name == d.name) = some d :=
    (find?_key_eq_some_iff _ fresh.distinct d.name d).mpr ⟨mem, rfl⟩
  simp [declared, type?, List.find?_append, skip, List.find?_map, found]

theorem type?_declared_of_builtin {name : String} (builtin : isBuiltinTypeName name = true) :
    ∃ t ∈ builtinTypes, b.declared.type? name = some t := by
  have present : (builtinTypes.find? (·.name == name)).isSome :=
    List.find?_isSome.mpr (List.any_eq_true.mp builtin)
  obtain ⟨t, found⟩ := Option.isSome_iff_exists.mp present
  exact ⟨t, List.mem_of_find?_eq_some found, by simp [declared, type?, List.find?_append, found]⟩

/-- A type of the declared schema is a built-in scalar or the type of a definition. -/
theorem type?_declared_eq_some {name : String} {t : NamedType}
    (found : b.declared.type? name = some t) :
    (t ∈ builtinTypes ∧ isBuiltinTypeName name = true) ∨
      ∃ d ∈ b.definitions, d.name = name ∧ t = d.added.2 := by
  simp only [declared, type?, List.find?_append, List.find?_map] at found
  cases inBuiltins : builtinTypes.find? (·.name == name) with
  | some u =>
    rw [inBuiltins, Option.some_or, Option.some.injEq] at found
    subst found
    exact .inl ⟨List.mem_of_find?_eq_some inBuiltins,
      List.any_eq_true.mpr ⟨u, List.mem_of_find?_eq_some inBuiltins,
        by simpa using List.find?_some inBuiltins⟩⟩
  | none =>
    rw [inBuiltins, Option.none_or, Option.map_eq_some_iff] at found
    obtain ⟨d, inDefinitions, rfl⟩ := found
    have named : d.name = name := by simpa [Function.comp_def] using List.find?_some inDefinitions
    exact .inr ⟨d, List.mem_of_find?_eq_some inDefinitions, named, rfl⟩

/-- A name has a type of a kind in the declared schema exactly when it is a built-in scalar and
the kind is that of scalars, or a definition of that name has that kind. -/
theorem exists_lookup_declared_iff (fresh : b.FreshNames) (clean : ∀ d ∈ b.definitions, d.added.1 = [])
    (name : String) (P : TypeKind → Prop) :
    (∃ t, b.declared.lookup name = some t ∧ P t.kind) ↔
      (isBuiltinTypeName name = true ∧ P .scalar) ∨ ∃ d ∈ b.definitions, d.name = name ∧ P d.kind := by
  simp only [lookup, Option.map_eq_some_iff]
  constructor
  · rintro ⟨_, ⟨t, found, rfl⟩, holds⟩
    rw [NamedType.shape_kind] at holds
    rcases type?_declared_eq_some found with ⟨builtin, named⟩ | ⟨d, mem, named, rfl⟩
    · exact .inl ⟨named, (builtinTypes_scalar t builtin).1 ▸ holds⟩
    · exact .inr ⟨d, mem, named, (Definition.added_members (clean d mem)).1 ▸ holds⟩
  · rintro (⟨builtin, holds⟩ | ⟨d, mem, rfl, holds⟩)
    · obtain ⟨t, member, found⟩ := type?_declared_of_builtin (b := b) builtin
      exact ⟨t.shape, ⟨t, found, rfl⟩, by simpa [(builtinTypes_scalar t member).1] using holds⟩
    · refine ⟨d.added.2.shape, ⟨d.added.2, type?_declared_of_mem fresh mem, rfl⟩, ?_⟩
      simpa [(Definition.added_members (clean d mem)).1] using holds

end SchemaBuilder

/-! ### Each check against the definitions -/

namespace SchemaBuilder

open Schema

variable {σ : Type}

section Logs

variable (s : Schema)

theorem outputLog_eq_nil_iff (ref : TypeRef) (owner : String) :
    outputLog s ref owner = [] ↔ ∃ t, s.lookup ref.namedType = some t ∧ t.kind.isOutput = true := by
  unfold outputLog
  cases s.lookup ref.namedType with
  | none => simp
  | some t => by_cases output : t.kind.isOutput <;> simp [output]

theorem memberLog_eq_nil_iff (union member : String) :
    memberLog s union member = [] ↔ ∃ t, s.lookup member = some t ∧ t.kind = .object := by
  unfold memberLog
  cases s.lookup member with
  | none => simp
  | some t => by_cases object : t.kind = .object <;> simp [object]

theorem rootLog_eq_nil_iff (operation name : String) :
    rootLog s operation name = [] ↔
      (name ≠ "" → ∃ t, s.lookup name = some t ∧ t.kind = .object) := by
  unfold rootLog
  by_cases empty : name = ""
  · simp [empty]
  · cases s.lookup name with
    | none => simp [empty]
    | some t => by_cases object : t.kind = .object <;> simp [empty, object]

theorem demandLog_eq_nil_iff (t : NamedType) (ifaceName : String) (want : Schema.Field) :
    demandLog s t ifaceName want = [] ↔
      ∃ got, t.field? want.name = some got ∧ BuildState.satisfies s got.type want.type = true := by
  unfold demandLog
  cases t.field? want.name with
  | none => simp
  | some got => by_cases fits : BuildState.satisfies s got.type want.type <;> simp [fits]

theorem interfaceLog_eq_nil_iff (t : NamedType) (ifaceName : String) :
    interfaceLog s t ifaceName = [] ↔
      ∃ iface, s.lookup ifaceName = some iface ∧ iface.kind = .interface ∧
        ∀ want ∈ iface.fields, demandLog s t ifaceName want = [] := by
  unfold interfaceLog
  cases s.lookup ifaceName with
  | none => simp
  | some iface =>
    by_cases isInterface : iface.kind = .interface <;> simp [isInterface, List.flatMap_eq_nil_iff]

end Logs

section Declared

variable {b : SchemaBuilder σ}

theorem FreshNames.eq_of_name (fresh : b.FreshNames) {d e : Definition σ} (hd : d ∈ b.definitions)
    (he : e ∈ b.definitions) (same : d.name = e.name) : d = e :=
  List.inj_on_of_nodup_map fresh.distinct hd he same

theorem possibleType_iff_of_mem (fresh : b.FreshNames) {d : Definition σ} (mem : d ∈ b.definitions) (object : String) :
    b.PossibleType d.name object ↔
      (∃ u, d = .union u ∧ object ∈ u.members) ∨
        (d.kind = .interface ∧ ∃ e ∈ b.definitions, e.name = object ∧ d.name ∈ e.implements) := by
  unfold PossibleType
  constructor
  · rintro (⟨u, unionMem, named, listed⟩ | ⟨⟨e, interfaceMem, named, isInterface⟩, implementer⟩)
    · exact .inl ⟨u, (fresh.eq_of_name unionMem mem named).symm, listed⟩
    · exact .inr ⟨fresh.eq_of_name interfaceMem mem named ▸ isInterface, implementer⟩
  · rintro (⟨u, rfl, listed⟩ | ⟨isInterface, implementer⟩)
    · exact .inl ⟨u, mem, rfl, listed⟩
    · exact .inr ⟨⟨d, mem, rfl, isInterface⟩, implementer⟩

variable (fresh : b.FreshNames) (clean : ∀ d ∈ b.definitions, d.added.1 = [])
include fresh clean

theorem definesOutput_iff (name : String) :
    b.DefinesOutput name ↔ ∃ t, b.declared.lookup name = some t ∧ t.kind.isOutput = true := by
  rw [exists_lookup_declared_iff fresh clean name (·.isOutput = true)]
  simp [DefinesOutput, TypeKind.isOutput]

theorem definesInput_iff (name : String) :
    b.DefinesInput name ↔ ∃ t, b.declared.lookup name = some t ∧ t.kind.isInput = true := by
  rw [exists_lookup_declared_iff fresh clean name (·.isInput = true)]
  simp [DefinesInput, TypeKind.isInput]

theorem definesObject_iff (name : String) :
    b.DefinesObject name ↔ ∃ t, b.declared.lookup name = some t ∧ t.kind = .object := by
  rw [exists_lookup_declared_iff fresh clean name (· = .object)]
  simp [DefinesObject]

/-- The type of a name in the declared schema is the enum of that name, if there is one, and
no enum otherwise. -/
theorem lookup_declared_enum {name : String} {t : NamedType}
    (found : b.declared.lookup name = some t) :
    (∃ e, .enum e ∈ b.definitions ∧ e.name = name ∧ t.kind = .enum ∧
        ∀ lit, t.hasEnumValue lit = e.values.any (·.name == lit)) ∨
      (t.kind ≠ .enum ∧ ∀ e, .enum e ∈ b.definitions → e.name ≠ name) := by
  simp only [lookup, Option.map_eq_some_iff] at found
  obtain ⟨u, found, rfl⟩ := found
  by_cases named : ∃ e, .enum e ∈ b.definitions ∧ e.name = name
  · obtain ⟨e, mem, rfl⟩ := named
    have declaredEnum := type?_declared_of_mem fresh mem
    rw [Definition.added_enum e (clean _ mem)] at declaredEnum
    rw [Definition.name, found, Option.some.injEq] at declaredEnum
    subst declaredEnum
    exact .inl ⟨e, mem, rfl, by simp, fun lit => by simp [NamedType.hasEnumValue]⟩
  · refine .inr ⟨?_, fun e mem same => named ⟨e, mem, same⟩⟩
    rcases type?_declared_eq_some found with ⟨builtin, -⟩ | ⟨d, mem, rfl, rfl⟩
    · simp [(builtinTypes_scalar u builtin).1]
    · rw [NamedType.shape_kind, (Definition.added_members (clean d mem)).1]
      cases d with
      | enum e => exact absurd ⟨e, mem, rfl⟩ named
      | _ => simp [Definition.kind]

theorem outputLog_declared_eq_nil_iff (ref : TypeRef) (owner : String) :
    outputLog b.declared ref owner = [] ↔ b.DefinesOutput ref.namedType := by
  rw [outputLog_eq_nil_iff, definesOutput_iff fresh clean]

theorem memberLog_declared_eq_nil_iff (union member : String) :
    memberLog b.declared union member = [] ↔ b.DefinesObject member := by
  rw [memberLog_eq_nil_iff, definesObject_iff fresh clean]

theorem inputLog_declared_eq_nil_iff (iv : InputValue) (owner : String) :
    inputLog b.declared iv owner = [] ↔ b.AcceptsInput iv := by
  unfold inputLog AcceptsInput
  rw [definesInput_iff fresh clean]
  cases found : b.declared.lookup iv.type.namedType with
  | none => simp
  | some t =>
    by_cases input : t.kind.isInput = true
    · simp only [input, Bool.not_true, Bool.false_eq_true, if_false, Option.some.injEq,
        exists_eq_left', true_and]
      cases default : iv.default with
      | none => simp
      | some v =>
        cases v
        case enumLiteral lit =>
          simp only [Option.some.injEq, Value.enumLiteral.injEq, forall_eq']
          rcases lookup_declared_enum fresh clean found with
            ⟨e, mem, named, isEnum, values⟩ | ⟨notEnum, noEnum⟩
          · have only : (∀ e', .enum e' ∈ b.definitions → e'.name = iv.type.namedType →
                lit ∈ e'.values.map (·.name)) ↔ lit ∈ e.values.map (·.name) := by
              refine ⟨fun all => all e mem named, fun holds e' mem' same => ?_⟩
              cases fresh.eq_of_name mem' mem (by simp [Definition.name, same, named])
              exact holds
            rw [only]
            simp [isEnum, values]
          · simp [notEnum]
            exact fun e mem same => absurd same (noEnum e mem)
        all_goals simp
    · simp [input]

/-- Checking the types a definition refers to raises nothing exactly when its fields return
output types, its arguments and input fields take input types, and its members are objects. -/
theorem referencesLog_declared_eq_nil_iff {d : Definition σ} (mem : d ∈ b.definitions) :
    referencesLog b.declared d.added.2 = [] ↔
      (∀ f ∈ d.outputFields, b.DefinesOutput f.type.namedType ∧ ∀ a ∈ f.arguments, b.AcceptsInput a) ∧
        (∀ iv ∈ d.inputFields, b.AcceptsInput iv) ∧ ∀ m ∈ d.unionMembers, b.DefinesObject m := by
  cases d with
  | object o =>
    obtain ⟨listed, eq, -⟩ := Definition.added_object o (clean _ mem)
    rw [eq]
    simp [referencesLog, List.flatMap_eq_nil_iff, outputLog_declared_eq_nil_iff fresh clean,
      inputLog_declared_eq_nil_iff fresh clean, Definition.outputFields, Definition.inputFields,
      Definition.unionMembers, FieldDef.toSchema]
  | interface i =>
    obtain ⟨listed, eq, -⟩ := Definition.added_interface i (clean _ mem)
    rw [eq]
    simp [referencesLog, List.flatMap_eq_nil_iff, outputLog_declared_eq_nil_iff fresh clean,
      inputLog_declared_eq_nil_iff fresh clean, Definition.outputFields, Definition.inputFields,
      Definition.unionMembers, FieldDef.toSchema]
  | union u =>
    obtain ⟨listed, eq, members⟩ := Definition.added_union (σ := σ) u
    rw [eq]
    simp [referencesLog, List.flatMap_eq_nil_iff, memberLog_declared_eq_nil_iff fresh clean, members,
      Definition.outputFields, Definition.inputFields, Definition.unionMembers]
  | enum e =>
    rw [Definition.added_enum e (clean _ mem)]
    simp [referencesLog, Definition.outputFields, Definition.inputFields, Definition.unionMembers]
  | inputObject io =>
    rw [Definition.added_inputObject io (clean _ mem)]
    simp [referencesLog, List.flatMap_eq_nil_iff, inputLog_declared_eq_nil_iff fresh clean,
      Definition.outputFields, Definition.inputFields, Definition.unionMembers]
  | scalar sc =>
    simp [referencesLog, Definition.added, Definition.outputFields, Definition.inputFields,
      Definition.unionMembers]

theorem exists_interfaces_declared_iff (abstract object : String) :
    (∃ o, b.declared.type? object = some o ∧ abstract ∈ o.interfaces) ↔
      ∃ e ∈ b.definitions, e.name = object ∧ abstract ∈ e.implements := by
  constructor
  · rintro ⟨o, found, listed⟩
    rcases type?_declared_eq_some found with ⟨builtin, -⟩ | ⟨e, mem, named, rfl⟩
    · simp [(builtinTypes_scalar o builtin).2] at listed
    · exact ⟨e, mem, named, ((Definition.added_members (clean e mem)).2.2.1 abstract).mp listed⟩
  · rintro ⟨e, mem, rfl, listed⟩
    exact ⟨e.added.2, type?_declared_of_mem fresh mem,
      ((Definition.added_members (clean e mem)).2.2.1 abstract).mpr listed⟩

/-- In the declared schema, `object` may stand for `abstract` exactly when the names are the
same or the definitions say so. -/
theorem isPossibleType_declared_iff (abstract object : String) :
    b.declared.isPossibleType abstract object = true ↔ abstract = object ∨ b.PossibleType abstract object := by
  unfold isPossibleType
  by_cases same : abstract = object
  · simp [same]
  simp only [same, beq_iff_eq, if_false, false_or]
  cases found : b.declared.type? abstract with
  | none =>
    dsimp only
    simp only [Bool.false_eq_true, false_iff]
    rintro (⟨u, mem, named, -⟩ | ⟨⟨d, mem, named, -⟩, -⟩)
    · have declaredUnion := type?_declared_of_mem fresh mem
      rw [Definition.name, named, found] at declaredUnion
      cases declaredUnion
    · have declaredInterface := type?_declared_of_mem fresh mem
      rw [named, found] at declaredInterface
      cases declaredInterface
  | some t =>
    rcases type?_declared_eq_some found with ⟨builtin, isBuiltin⟩ | ⟨d, mem, rfl, rfl⟩
    · dsimp only
      simp only [(builtinTypes_scalar t builtin).1, Bool.false_eq_true, false_iff]
      rintro (⟨u, mem, named, -⟩ | ⟨⟨d, mem, named, -⟩, -⟩)
      · have notBuiltin := fresh.notBuiltin _ mem
        rw [Definition.name, named, isBuiltin] at notBuiltin
        cases notBuiltin
      · have notBuiltin := fresh.notBuiltin _ mem
        rw [named, isBuiltin] at notBuiltin
        cases notBuiltin
    · dsimp only
      rw [possibleType_iff_of_mem fresh mem, (Definition.added_members (clean d mem)).1]
      cases d with
      | union u =>
        obtain ⟨listed, eq, members⟩ := Definition.added_union (σ := σ) u
        simp [eq, members, Definition.kind]
      | interface i =>
        rw [← exists_interfaces_declared_iff fresh clean]
        cases b.declared.type? object with
        | none => simp [Definition.kind]
        | some o => simp [Definition.kind, Definition.name]
      | _ => simp [Definition.kind]

/-- In the declared schema, `satisfies` decides `Implements`. -/
theorem satisfies_declared_iff (got want : TypeRef) :
    BuildState.satisfies b.declared got want = true ↔ b.Implements got want := by
  fun_induction BuildState.satisfies b.declared got want with
  | case1 got want ih =>
    rw [ih]
    constructor
    · exact .nonNull
    · intro implements
      cases implements with
      | nonNull inner => exact inner
      | narrow notNonNull _ => simp [TypeRef.isNonNull] at notNonNull
  | case2 got want notNonNull =>
    simp only [Bool.false_eq_true, false_iff]
    intro implements
    cases implements with
    | nonNull => exact notNonNull _ rfl
    | narrow => exact notNonNull _ rfl
  | case3 got want notNonNull ih =>
    rw [ih]
    constructor
    · exact .narrow (by cases want <;> simp_all [TypeRef.isNonNull])
    · intro implements
      cases implements with
      | nonNull => exact absurd rfl (notNonNull _)
      | narrow _ inner => exact inner
  | case4 got want ih =>
    rw [ih]
    constructor
    · exact .list
    · intro implements
      cases implements with
      | list inner => exact inner
  | case5 got want notNonNull notList =>
    simp only [Bool.false_eq_true, false_iff]
    intro implements
    cases implements with
    | narrow => exact notNonNull _ rfl
    | list => exact notList _ rfl
  | case6 got other notNonNull notList =>
    simp only [Bool.false_eq_true, false_iff]
    intro implements
    cases implements with
    | list => exact notList _ rfl
  | case7 got want =>
    simp only [Bool.or_eq_true, beq_iff_eq, isPossibleType_declared_iff fresh clean]
    constructor
    · rintro (same | same | possible)
      · exact .named (.inl same)
      · exact .named (.inl same.symm)
      · exact .named (.inr possible)
    · intro implements
      cases implements with
      | named reason => exact reason.elim .inl (.inr ∘ .inr)

/-- The interface a name refers to in the declared schema is an interface definition of that
name, with its own fields. -/
theorem exists_interface_declared_iff (name : String) (Q : List Schema.Field → Prop) :
    (∃ iface, b.declared.lookup name = some iface ∧ iface.kind = .interface ∧ Q iface.fields) ↔
      ∃ e ∈ b.definitions, e.name = name ∧ e.kind = .interface ∧
        Q (e.outputFields.map FieldDef.toSchema) := by
  simp only [lookup, Option.map_eq_some_iff]
  constructor
  · rintro ⟨_, ⟨t, found, rfl⟩, isInterface, holds⟩
    rw [NamedType.shape_kind] at isInterface
    rw [NamedType.shape_fields] at holds
    rcases type?_declared_eq_some found with ⟨builtin, -⟩ | ⟨e, mem, named, rfl⟩
    · simp [(builtinTypes_scalar t builtin).1] at isInterface
    · obtain ⟨kind, fields, -⟩ := Definition.added_members (clean e mem)
      exact ⟨e, mem, named, kind ▸ isInterface, fields ▸ holds⟩
  · rintro ⟨e, mem, rfl, isInterface, holds⟩
    obtain ⟨kind, fields, -⟩ := Definition.added_members (clean e mem)
    exact ⟨e.added.2.shape, ⟨e.added.2, type?_declared_of_mem fresh mem, rfl⟩,
      by simp [kind, isInterface], by simpa [fields] using holds⟩

theorem demandLog_declared_eq_nil_iff {d : Definition σ} (mem : d ∈ b.definitions)
    (ifaceName : String) (want : FieldDef σ) :
    demandLog b.declared d.added.2 ifaceName want.toSchema = [] ↔
      ∃ got ∈ d.outputFields, got.name = want.name ∧ b.Implements got.type want.type := by
  rw [demandLog_eq_nil_iff]
  simp only [Definition.field?_added (clean d mem), satisfies_declared_iff fresh clean]
  constructor
  · rintro ⟨_, ⟨got, member, named, rfl⟩, fits⟩
    exact ⟨got, member, named, fits⟩
  · rintro ⟨got, member, named, fits⟩
    exact ⟨_, ⟨got, member, named, rfl⟩, fits⟩

/-- Checking the interfaces a definition implements raises nothing exactly when each names an
interface definition whose every field the definition has, with a type that implements it. -/
theorem implementsLog_declared_eq_nil_iff {d : Definition σ} (mem : d ∈ b.definitions) :
    implementsLog b.declared d.added.2 = [] ↔
      ∀ i ∈ d.implements, ∃ e ∈ b.definitions, e.name = i ∧ e.kind = .interface ∧
        ∀ want ∈ e.outputFields, ∃ got ∈ d.outputFields, got.name = want.name ∧
          b.Implements got.type want.type := by
  obtain ⟨kind, -, listed, -⟩ := Definition.added_members (clean d mem)
  unfold implementsLog
  by_cases outputKind : d.kind = .object ∨ d.kind = .interface
  · have checked : (d.added.2.kind != .object && d.added.2.kind != .interface) = false := by
      rcases outputKind with isKind | isKind <;> simp [kind, isKind]
    simp only [checked, Bool.false_eq_true, if_false, List.flatMap_eq_nil_iff, listed,
      interfaceLog_eq_nil_iff]
    refine forall₂_congr fun i _ => ?_
    rw [exists_interface_declared_iff fresh clean i
      (fun fields => ∀ want ∈ fields, demandLog b.declared d.added.2 i want = [])]
    simp only [List.forall_mem_map, demandLog_declared_eq_nil_iff fresh clean mem]
  · have unchecked : (d.added.2.kind != .object && d.added.2.kind != .interface) = true := by
      simpa [kind, not_or] using outputKind
    have none : d.implements = [] := by
      cases d <;> simp_all [Definition.kind, Definition.implements]
    simp [unchecked, none]

theorem rootLog_declared_eq_nil_iff (operation name : String) :
    rootLog b.declared operation name = [] ↔ (name ≠ "" → b.DefinesObject name) := by
  rw [rootLog_eq_nil_iff, definesObject_iff fresh clean]

theorem rootsLog_declared_eq_nil_iff (query mutation subscription : String) :
    rootsLog b.declared query mutation subscription = [] ↔
      query ≠ "" ∧ ∀ name ∈ [query, mutation, subscription], name ≠ "" → b.DefinesObject name := by
  simp [rootsLog, rootLog_declared_eq_nil_iff fresh clean]

end Declared

end SchemaBuilder

end GraphWeave
