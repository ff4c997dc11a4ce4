import GraphWeave.Proofs.Definition.Declared

/-!
Which definitions a schema build accepts: each phase of the build raises nothing exactly when its
part of well-formedness holds, so the build accepts exactly the well-formed definitions.
-/

namespace GraphWeave

theorem map_zipIdx_fst {α β : Type} (l : List α) (f : α → β) (k : Nat) :
    (l.zipIdx k).map (fun p => f p.1) = l.map f := by
  conv_rhs => rw [← List.zipIdx_map_fst k l]
  rw [List.map_map]
  rfl

theorem flatMap_zipIdx_fst {α β : Type} (l : List α) (f : α → List β) (k : Nat) :
    (l.zipIdx k).flatMap (fun p => f p.1) = l.flatMap f := by
  rw [← List.flatMap_map Prod.fst f, List.zipIdx_map_fst]

namespace SchemaBuilder

open Schema

variable {σ : Type}

namespace BuildState

theorem foldl_grows {α : Type} {step : BuildState σ → α → BuildState σ} (xs : List α)
    (st : BuildState σ)
    (each : ∀ st x, ∃ vs, (step st x).violations.toList = st.violations.toList ++ vs) :
    ∃ vs, (xs.foldl step st).violations.toList = st.violations.toList ++ vs := by
  induction xs generalizing st with
  | nil => exact ⟨[], by simp⟩
  | cons x rest ih =>
    obtain ⟨vs, grown⟩ := each st x
    obtain ⟨ws, grown'⟩ := ih (step st x)
    exact ⟨vs ++ ws, by rw [List.foldl_cons, grown', grown, List.append_assoc]⟩

theorem violate_grows (st : BuildState σ) (v : Violation) :
    ∃ vs, (st.violate v).violations.toList = st.violations.toList ++ vs :=
  ⟨[v], by rw [violate_eq_record, record_violations]⟩

theorem checkImplementations_grows (st : BuildState σ) (t : NamedType) :
    ∃ vs, (st.checkImplementations t).violations.toList = st.violations.toList ++ vs := by
  unfold checkImplementations
  split
  · exact ⟨[], by simp⟩
  refine foldl_grows _ _ fun st ifaceName => ?_
  split
  · split
    · exact violate_grows _ _
    · dsimp only
      split <;>
      · refine foldl_grows _ _ fun st want => ?_
        split
        · exact violate_grows _ _
        · split
          · exact ⟨[], by simp⟩
          · exact violate_grows _ _
  · exact violate_grows _ _

theorem checkType_grows (check : BuildState σ → NamedType → BuildState σ)
    (each : ∀ st t, ∃ vs, (check st t).violations.toList = st.violations.toList ++ vs)
    (st : BuildState σ) (name : String) :
    ∃ vs, (st.checkType check name).violations.toList = st.violations.toList ++ vs := by
  unfold checkType
  split
  · exact each _ _
  · exact ⟨[], by simp⟩

theorem foldl_add_grows (L : List (Definition σ × Nat)) (st : BuildState σ) :
    ∃ vs, (L.foldl (fun st p => st.add p.2 p.1) st).violations.toList = st.violations.toList ++ vs :=
  foldl_grows L st fun st p => add_grows st p.2 p.1

/-- A definition whose name is free and new to the schema stays so after another, of a different
name, is added. -/
theorem allowed_of_add {st : BuildState σ} {d e : Definition σ} (index : Nat)
    (plain : d.name.startsWith "__" = false) (notBuiltin : isBuiltinTypeName d.name = false)
    (notWon : st.winners.any (·.1 == d.name) = false)
    (notTyped : st.raw.types.any (·.name == d.name) = false) (other : d.name ≠ e.name)
    (allowed : e.name.startsWith "__" = false ∧ isBuiltinTypeName e.name = false ∧
      st.winners.any (·.1 == e.name) = false ∧ st.raw.types.any (·.name == e.name) = false) :
    e.name.startsWith "__" = false ∧ isBuiltinTypeName e.name = false ∧
      (st.add index d).winners.any (·.1 == e.name) = false ∧
      (st.add index d).raw.types.any (·.name == e.name) = false := by
  obtain ⟨won, typed, -⟩ := add_fresh st index d plain notBuiltin notWon
  have appended : st.raw.addType d.added.2 = { st.raw with types := st.raw.types ++ [d.added.2] } := by
    simp [addType, notTyped]
  obtain ⟨plain', notBuiltin', notWon', notTyped'⟩ := allowed
  refine ⟨plain', notBuiltin', ?_, ?_⟩
  · simp [won, notWon', other]
  · simp [typed, appended, notTyped', other]

/-- Adding definitions whose names are distinct, free and new to the schema wins every name,
appends every type and records what the members of each raise. -/
theorem foldl_add_fresh (L : List (Definition σ × Nat)) (st : BuildState σ)
    (distinct : (L.map (·.1.name)).Nodup)
    (allowed : ∀ p ∈ L, p.1.name.startsWith "__" = false ∧ isBuiltinTypeName p.1.name = false ∧
      st.winners.any (·.1 == p.1.name) = false ∧ st.raw.types.any (·.name == p.1.name) = false) :
    (L.foldl (fun st p => st.add p.2 p.1) st).winners = st.winners ++ L.map (fun p => (p.1.name, p.2)) ∧
      (L.foldl (fun st p => st.add p.2 p.1) st).raw =
        { st.raw with types := st.raw.types ++ L.map (·.1.added.2) } ∧
      (L.foldl (fun st p => st.add p.2 p.1) st).violations.toList =
        st.violations.toList ++ L.flatMap (·.1.added.1) := by
  induction L generalizing st with
  | nil => simp
  | cons p rest ih =>
    obtain ⟨plain, notBuiltin, notWon, notTyped⟩ := allowed p List.mem_cons_self
    obtain ⟨won, typed, logged⟩ := add_fresh st p.2 p.1 plain notBuiltin notWon
    have appended : st.raw.addType p.1.added.2 =
        { st.raw with types := st.raw.types ++ [p.1.added.2] } := by
      simp [addType, notTyped]
    obtain ⟨notRest, distinct'⟩ := List.nodup_cons.mp distinct
    have allowed' : ∀ q ∈ rest, q.1.name.startsWith "__" = false ∧
        isBuiltinTypeName q.1.name = false ∧ (st.add p.2 p.1).winners.any (·.1 == q.1.name) = false ∧
        (st.add p.2 p.1).raw.types.any (·.name == q.1.name) = false := fun q mem =>
      allowed_of_add p.2 plain notBuiltin notWon notTyped
        (fun same => notRest (List.mem_map.mpr ⟨q, mem, same.symm⟩))
        (allowed q (List.mem_cons_of_mem _ mem))
    obtain ⟨won', typed', logged'⟩ := ih (st.add p.2 p.1) distinct' allowed'
    rw [List.foldl_cons]
    refine ⟨by simp [won', won], by simp [typed', typed, appended], by simp [logged', logged]⟩

/-- Adding definitions of which one has a reserved, built-in, already won or repeated name
records a violation. -/
theorem foldl_add_refused (L : List (Definition σ × Nat)) (st : BuildState σ)
    (refused : ¬ ((L.map (·.1.name)).Nodup ∧ ∀ p ∈ L, p.1.name.startsWith "__" = false ∧
      isBuiltinTypeName p.1.name = false ∧ st.winners.any (·.1 == p.1.name) = false)) :
    ∃ vs, vs ≠ [] ∧
      (L.foldl (fun st p => st.add p.2 p.1) st).violations.toList = st.violations.toList ++ vs := by
  induction L generalizing st with
  | nil => simp at refused
  | cons p rest ih =>
    rw [List.foldl_cons]
    by_cases admitted : p.1.name.startsWith "__" = false ∧ isBuiltinTypeName p.1.name = false ∧
        st.winners.any (·.1 == p.1.name) = false
    · obtain ⟨plain, notBuiltin, notWon⟩ := admitted
      obtain ⟨won, -, logged⟩ := add_fresh st p.2 p.1 plain notBuiltin notWon
      have refused' : ¬ ((rest.map (·.1.name)).Nodup ∧ ∀ q ∈ rest,
          q.1.name.startsWith "__" = false ∧ isBuiltinTypeName q.1.name = false ∧
            (st.add p.2 p.1).winners.any (·.1 == q.1.name) = false) := by
        rintro ⟨distinct, allowed⟩
        have apart : ∀ q ∈ rest, q.1.name ≠ p.1.name ∧ st.winners.any (·.1 == q.1.name) = false := by
          intro q mem
          have notWon' := (allowed q mem).2.2
          simp only [won, List.any_append, List.any_cons, List.any_nil, Bool.or_false,
            Bool.or_eq_false_iff, beq_eq_false_iff_ne, ne_eq] at notWon'
          exact ⟨fun same => notWon'.2 same.symm, notWon'.1⟩
        refine refused ⟨List.nodup_cons.mpr ⟨fun inRest => ?_, distinct⟩, fun q mem => ?_⟩
        · obtain ⟨q, mem, same⟩ := List.mem_map.mp inRest
          exact (apart q mem).1 same
        · rcases List.mem_cons.mp mem with rfl | mem
          · exact ⟨plain, notBuiltin, notWon⟩
          · exact ⟨(allowed q mem).1, (allowed q mem).2.1, (apart q mem).2⟩
      obtain ⟨vs, nonempty, grown⟩ := ih (st.add p.2 p.1) refused'
      exact ⟨p.1.added.1 ++ vs, by simp [nonempty], by rw [grown, logged, List.append_assoc]⟩
    · obtain ⟨v, refusedHere⟩ := add_refused st p.2 p.1
        (by simpa [Bool.not_eq_false, or_iff_not_imp_left] using admitted)
      obtain ⟨vs, grown⟩ := foldl_add_grows rest (st.add p.2 p.1)
      exact ⟨v :: vs, List.cons_ne_nil v vs, by rw [grown, refusedHere, record_violations]; simp⟩

end BuildState

namespace BuildState

theorem checkType_references (st : BuildState σ) (name : String) :
    st.checkType checkReferences name =
      st.record (((st.raw.type? name).map (referencesLog st.raw)).getD []) := by
  unfold checkType
  cases st.raw.type? name with
  | none => simp
  | some t => simp [checkReferences_eq]

/-- Checking the implementations of a name's type, in a schema of the shape of `s`, records what
checking them in `s` raises, and keeps the shape. -/
theorem checkType_implementations (st : BuildState σ) {s : Schema}
    (distinct : (s.types.map (·.name)).Nodup) (same : st.raw.shape = s.shape) (name : String) :
    (st.checkType checkImplementations name).violations.toList =
        st.violations.toList ++ ((s.type? name).map (implementsLog s)).getD [] ∧
      (st.checkType checkImplementations name).raw.shape = s.shape := by
  have distinct' : (st.raw.types.map (·.name)).Nodup := by
    rw [← names_shape, same, names_shape]
    exact distinct
  have lookups : st.raw.lookup = s.lookup := by rw [← lookup_shape, same, lookup_shape]
  have types : (st.raw.type? name).map NamedType.shape = (s.type? name).map NamedType.shape := by
    rw [← type?_shape, ← type?_shape, same]
  cases found : st.raw.type? name with
  | none =>
    rw [found, Option.map_none, eq_comm, Option.map_eq_none_iff] at types
    simp [checkType, found, types, same]
  | some t =>
    rw [found, Option.map_some, eq_comm, Option.map_eq_some_iff] at types
    obtain ⟨t', found', shaped⟩ := types
    obtain ⟨logged, kept⟩ := checkImplementations_eq st t distinct'
    rw [checkType_some st _ found]
    refine ⟨?_, kept.trans same⟩
    rw [logged, found', Option.map_some, Option.getD_some, implementsLog_congr lookups,
      ← implementsLog_shape s t, ← shaped, implementsLog_shape]

end BuildState

variable (b : SchemaBuilder σ)

/-- The state after adding every definition. -/
def addedState : BuildState σ :=
  b.definitions.zipIdx.foldl (fun st p => st.add p.2 p.1) { raw := withBuiltins b.description }

/-- The definitions that won their names, with their places. -/
def accepted : List (Definition σ × Nat) :=
  b.definitions.zipIdx.filter fun p => b.addedState.winners.contains (p.1.name, p.2)

/-- The state after checking references, implementations and roots. -/
def checkedState : BuildState σ :=
  let st := b.accepted.foldl (fun st p => st.checkType BuildState.checkReferences p.1.name) b.addedState
  let st := b.accepted.foldl (fun st p => st.checkType BuildState.checkImplementations p.1.name) st
  st.checkRoots b.query b.mutation b.subscription

/-- The state after checking references and implementations, before the roots. -/
def implementedState : BuildState σ :=
  b.accepted.foldl (fun st p => st.checkType BuildState.checkImplementations p.1.name)
    (b.accepted.foldl (fun st p => st.checkType BuildState.checkReferences p.1.name) b.addedState)

theorem checkedState_eq :
    b.checkedState = b.implementedState.checkRoots b.query b.mutation b.subscription := rfl

theorem finish_eq :
    b.finish = if b.checkedState.violations.isEmpty then
      .ok ⟨{ b.checkedState.raw with
              query := b.query, mutation := b.mutation, subscription := b.subscription },
        b.checkedState.resolvers, b.checkedState.scalars⟩
    else .error ⟨b.checkedState.violations.toList⟩ := rfl

variable {b}

theorem addedState_of_fresh (fresh : b.FreshNames) :
    b.addedState.winners = b.definitions.zipIdx.map (fun p => (p.1.name, p.2)) ∧
      b.addedState.raw = b.declared ∧
      b.addedState.violations.toList = b.definitions.flatMap (·.added.1) := by
  have distinct : (b.definitions.zipIdx.map (·.1.name)).Nodup := by
    rw [map_zipIdx_fst b.definitions (·.name)]
    exact fresh.distinct
  obtain ⟨won, typed, logged⟩ := BuildState.foldl_add_fresh b.definitions.zipIdx
    { raw := withBuiltins b.description } distinct fun p mem => by
      have defined := List.fst_mem_of_mem_zipIdx mem
      exact ⟨fresh.unreserved _ defined, fresh.notBuiltin _ defined, by simp,
        fresh.notBuiltin _ defined⟩
  refine ⟨by rw [addedState, won]; simp, ?_, ?_⟩
  · rw [addedState, typed, map_zipIdx_fst b.definitions (·.added.2)]
    rfl
  · rw [addedState, logged, flatMap_zipIdx_fst b.definitions (·.added.1)]
    rfl

theorem addedState_of_stale (stale : ¬ b.FreshNames) : b.addedState.violations.toList ≠ [] := by
  have refused : ¬ ((b.definitions.zipIdx.map (·.1.name)).Nodup ∧ ∀ p ∈ b.definitions.zipIdx,
      p.1.name.startsWith "__" = false ∧ isBuiltinTypeName p.1.name = false ∧
        ([] : List (String × Nat)).any (·.1 == p.1.name) = false) := by
    rintro ⟨distinct, allowed⟩
    have placed : ∀ d ∈ b.definitions, ∃ p ∈ b.definitions.zipIdx, p.1 = d := by
      intro d mem
      rw [← List.zipIdx_map_fst 0 b.definitions] at mem
      exact List.mem_map.mp mem
    refine stale ⟨?_, fun d mem => ?_, fun d mem => ?_⟩
    · rwa [map_zipIdx_fst b.definitions (·.name)] at distinct
    · obtain ⟨p, inZipIdx, rfl⟩ := placed d mem
      exact (allowed p inZipIdx).1
    · obtain ⟨p, inZipIdx, rfl⟩ := placed d mem
      exact (allowed p inZipIdx).2.1
  obtain ⟨vs, nonempty, grown⟩ := BuildState.foldl_add_refused b.definitions.zipIdx
    { raw := withBuiltins b.description } refused
  rw [addedState, grown]
  simpa using nonempty

theorem accepted_of_fresh (fresh : b.FreshNames) : b.accepted = b.definitions.zipIdx := by
  rw [accepted, List.filter_eq_self]
  intro p mem
  rw [(addedState_of_fresh fresh).1]
  simpa using List.mem_map_of_mem (f := fun p : Definition σ × Nat => (p.1.name, p.2)) mem

theorem declared_names_nodup (fresh : b.FreshNames) : (b.declared.types.map (·.name)).Nodup := by
  have names : (b.definitions.map (·.added.2)).map (·.name) = b.definitions.map (·.name) := by
    simp [Function.comp_def]
  simp only [declared, List.map_append, names, List.nodup_append]
  refine ⟨by decide, fresh.distinct, ?_⟩
  intro builtinName inBuiltins name inDefinitions same
  obtain ⟨t, builtin, rfl⟩ := List.mem_map.mp inBuiltins
  obtain ⟨d, mem, rfl⟩ := List.mem_map.mp inDefinitions
  have notBuiltin := fresh.notBuiltin d mem
  simp only [isBuiltinTypeName, List.any_eq_false, beq_iff_eq] at notBuiltin
  exact notBuiltin t builtin same

/-- When the names are fresh, checking references and implementations records, after what the
definitions' members raise, what the type of each raises read in the declared schema, and leaves
a schema of the declared one's shape: only the possible types of interfaces grow. -/
theorem implementedState_of_fresh (fresh : b.FreshNames) :
    b.implementedState.violations.toList =
        b.definitions.flatMap (·.added.1) ++
          b.definitions.flatMap (fun d => referencesLog b.declared d.added.2) ++
          b.definitions.flatMap (fun d => implementsLog b.declared d.added.2) ∧
      b.implementedState.raw.shape = b.declared.shape := by
  obtain ⟨-, raw, logged⟩ := addedState_of_fresh fresh
  have found : ∀ p ∈ b.definitions.zipIdx, b.declared.type? p.1.name = some p.1.added.2 :=
    fun p mem => type?_declared_of_mem fresh (List.fst_mem_of_mem_zipIdx mem)
  have byName : ∀ log : NamedType → List Violation,
      b.definitions.zipIdx.flatMap (fun p => ((b.declared.type? p.1.name).map log).getD []) =
        b.definitions.flatMap fun d => log d.added.2 := by
    intro log
    rw [List.flatMap_congr fun p mem => by rw [found p mem, Option.map_some, Option.getD_some]]
    exact flatMap_zipIdx_fst b.definitions (fun d => log d.added.2) 0
  have referenced : b.definitions.zipIdx.foldl
      (fun st p => st.checkType BuildState.checkReferences p.1.name) b.addedState =
        b.addedState.record (b.definitions.zipIdx.flatMap fun p =>
          ((b.declared.type? p.1.name).map (referencesLog b.declared)).getD []) :=
    BuildState.foldl_record _ _ _ raw fun st p same => by rw [BuildState.checkType_references, same]
  rw [byName] at referenced
  obtain ⟨implemented, shaped⟩ := @BuildState.foldl_shaped σ (Definition σ × Nat) b.declared
    (fun st p => st.checkType BuildState.checkImplementations p.1.name)
    (fun p => ((b.declared.type? p.1.name).map (implementsLog b.declared)).getD [])
    b.definitions.zipIdx
    (b.addedState.record (b.definitions.flatMap fun d => referencesLog b.declared d.added.2))
    (by rw [BuildState.record_raw, raw])
    fun st p same => BuildState.checkType_implementations st (declared_names_nodup fresh) same p.1.name
  rw [byName] at implemented
  rw [implementedState, accepted_of_fresh fresh, referenced]
  refine ⟨?_, shaped⟩
  rw [implemented, BuildState.record_violations, logged]

theorem checkedState_of_fresh (fresh : b.FreshNames) :
    b.checkedState.violations.toList =
      b.definitions.flatMap (·.added.1) ++
        b.definitions.flatMap (fun d => referencesLog b.declared d.added.2) ++
        b.definitions.flatMap (fun d => implementsLog b.declared d.added.2) ++
        rootsLog b.declared b.query b.mutation b.subscription := by
  obtain ⟨implemented, shaped⟩ := implementedState_of_fresh fresh
  have lookups := congrArg Schema.lookup shaped
  rw [lookup_shape, lookup_shape] at lookups
  rw [checkedState_eq, BuildState.checkRoots_eq, BuildState.record_violations, implemented,
    rootsLog_congr lookups]

theorem checkedState_of_stale (stale : ¬ b.FreshNames) : b.checkedState.violations.toList ≠ [] := by
  obtain ⟨vs, referenced⟩ := BuildState.foldl_grows b.accepted b.addedState fun st p =>
    BuildState.checkType_grows BuildState.checkReferences
      (fun st t => ⟨_, by rw [BuildState.checkReferences_eq, BuildState.record_violations]⟩) st p.1.name
  obtain ⟨ws, implemented⟩ := BuildState.foldl_grows b.accepted
    (b.accepted.foldl (fun st p => st.checkType BuildState.checkReferences p.1.name) b.addedState)
    fun st p => BuildState.checkType_grows BuildState.checkImplementations
      BuildState.checkImplementations_grows st p.1.name
  unfold checkedState
  dsimp only
  rw [BuildState.checkRoots_eq, BuildState.record_violations, implemented, referenced]
  simp [addedState_of_stale stale]

/-- The build accepts exactly the well-formed definitions. -/
theorem finish_ok_iff : (∃ es, b.finish = .ok es) ↔ b.WellFormed := by
  have accepts : (∃ es, b.finish = .ok es) ↔ b.checkedState.violations.toList = [] := by
    rw [finish_eq]
    split
    · rename_i empty
      simpa using empty
    · rename_i nonempty
      simpa using nonempty
  rw [accepts]
  by_cases fresh : b.FreshNames
  · rw [checkedState_of_fresh fresh]
    simp only [List.append_eq_nil_iff, List.flatMap_eq_nil_iff]
    constructor
    · rintro ⟨⟨⟨clean, references⟩, implementations⟩, roots⟩
      have members := fun d mem => (Definition.added_clean_iff d).mp (clean d mem)
      have references' := fun d mem =>
        (referencesLog_declared_eq_nil_iff fresh clean mem).mp (references d mem)
      obtain ⟨queryNamed, rootsDefined⟩ := (rootsLog_declared_eq_nil_iff fresh clean _ _ _).mp roots
      exact { toFreshNames := fresh
              hasMembers := fun d mem => (members d mem).1
              distinctMembers := fun d mem => (members d mem).2.1
              resolved := fun d mem => (members d mem).2.2
              outputTypes := fun d mem f field => ((references' d mem).1 f field).1
              argumentTypes := fun d mem f field => ((references' d mem).1 f field).2
              inputFieldTypes := fun d mem => (references' d mem).2.1
              unionMembers := fun d mem => (references' d mem).2.2
              implementations := fun d mem =>
                (implementsLog_declared_eq_nil_iff fresh clean mem).mp (implementations d mem)
              queryNamed
              roots := rootsDefined }
    · intro wellFormed
      have clean : ∀ d ∈ b.definitions, d.added.1 = [] := fun d mem =>
        (Definition.added_clean_iff d).mpr
          ⟨wellFormed.hasMembers d mem, wellFormed.distinctMembers d mem, wellFormed.resolved d mem⟩
      refine ⟨⟨⟨clean, fun d mem => ?_⟩, fun d mem => ?_⟩, ?_⟩
      · exact (referencesLog_declared_eq_nil_iff fresh clean mem).mpr
          ⟨fun f field => ⟨wellFormed.outputTypes d mem f field, wellFormed.argumentTypes d mem f field⟩,
            wellFormed.inputFieldTypes d mem, wellFormed.unionMembers d mem⟩
      · exact (implementsLog_declared_eq_nil_iff fresh clean mem).mpr (wellFormed.implementations d mem)
      · exact (rootsLog_declared_eq_nil_iff fresh clean _ _ _).mpr
          ⟨wellFormed.queryNamed, wellFormed.roots⟩
  · exact iff_of_false (checkedState_of_stale fresh) fun wellFormed => fresh wellFormed.toFreshNames

end SchemaBuilder

end GraphWeave
