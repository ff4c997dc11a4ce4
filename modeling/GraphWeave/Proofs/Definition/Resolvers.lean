import GraphWeave.Proofs.Execution.InputIdempotence
import Mathlib

/-!
What a built schema keeps of its object definitions.
-/

namespace GraphWeave

namespace Definition

variable {σ : Type}

/-- What adding a definition hands to the runtime: an object's fields, under its name. -/
def resolved : Definition σ → List (String × List (FieldDef σ))
  | .object o => [(o.name, o.fields)]
  | _ => []

theorem resolved_names_sublist (ds : List (Definition σ)) :
    ((ds.flatMap resolved).map (·.1)).Sublist (ds.map (·.name)) := by
  induction ds with
  | nil => simp
  | cons d rest ih =>
    rw [List.flatMap_cons, List.map_cons]
    cases d
    case object o => exact ih.cons_cons o.name
    all_goals exact ih.cons _

end Definition

namespace SchemaBuilder

open Schema

variable {σ : Type}

namespace BuildState

@[simp] theorem record_resolvers (st : BuildState σ) (vs : List Violation) :
    (st.record vs).resolvers = st.resolvers := rfl

theorem foldl_resolvers {α : Type} {step : BuildState σ → α → BuildState σ} (xs : List α)
    (st : BuildState σ) (each : ∀ st x, (step st x).resolvers = st.resolvers) :
    (xs.foldl step st).resolvers = st.resolvers := by
  induction xs generalizing st with
  | nil => rfl
  | cons x rest ih => rw [List.foldl_cons, ih, each]

/-- Adding a definition of a fresh name whose members raise nothing hands its fields on. -/
theorem add_resolvers (st : BuildState σ) (index : Nat) (d : Definition σ)
    (plain : d.name.startsWith "__" = false) (notBuiltin : isBuiltinTypeName d.name = false)
    (fresh : st.winners.any (·.1 == d.name) = false) (clean : d.added.1 = []) :
    (st.add index d).resolvers = st.resolvers ++ d.resolved := by
  cases d with
  | object o =>
    simp only [Definition.added, List.append_eq_nil_iff] at clean
    simp only [Definition.name] at plain notBuiltin fresh
    simp only [add, Definition.name, plain, notBuiltin, fresh, addFields_eq,
      fieldsAdded_kept _ _ _ _ clean.1]
    by_cases empty : o.fields.isEmpty <;> simp [empty, violate_eq_record, Definition.resolved]
  | interface i =>
    simp only [Definition.name] at plain notBuiltin fresh
    simp only [add, Definition.name, plain, notBuiltin, fresh, addFields_eq]
    by_cases empty : i.fields.isEmpty <;> simp [empty, violate_eq_record, Definition.resolved]
  | union u =>
    simp only [Definition.name] at plain notBuiltin fresh
    simp only [add, Definition.name, plain, notBuiltin, fresh]
    by_cases empty : u.members.isEmpty <;> simp [empty, violate_eq_record, Definition.resolved]
  | enum e =>
    simp only [Definition.name] at plain notBuiltin fresh
    simp only [add, Definition.name, plain, notBuiltin, fresh, addEnumValues_eq]
    by_cases empty : e.values.isEmpty <;> simp [empty, violate_eq_record, Definition.resolved]
  | inputObject io =>
    simp only [Definition.name] at plain notBuiltin fresh
    simp only [add, Definition.name, plain, notBuiltin, fresh, addInputFields_eq]
    by_cases empty : io.fields.isEmpty <;> simp [empty, violate_eq_record, Definition.resolved]
  | scalar sc =>
    simp only [Definition.name] at plain notBuiltin fresh
    simp [add, Definition.name, plain, notBuiltin, fresh, Definition.resolved]

/-- Adding definitions whose names are distinct, free and new to the schema, and whose members
raise nothing, hands on the fields of each object in order. -/
theorem foldl_add_resolvers (L : List (Definition σ × Nat)) (st : BuildState σ)
    (distinct : (L.map (·.1.name)).Nodup)
    (allowed : ∀ p ∈ L, p.1.name.startsWith "__" = false ∧ isBuiltinTypeName p.1.name = false ∧
      st.winners.any (·.1 == p.1.name) = false ∧ st.raw.types.any (·.name == p.1.name) = false)
    (clean : ∀ p ∈ L, p.1.added.1 = []) :
    (L.foldl (fun st p => st.add p.2 p.1) st).resolvers = st.resolvers ++ L.flatMap (·.1.resolved) := by
  induction L generalizing st with
  | nil => simp
  | cons p rest ih =>
    obtain ⟨plain, notBuiltin, notWon, notTyped⟩ := allowed p List.mem_cons_self
    obtain ⟨notRest, distinct'⟩ := List.nodup_cons.mp distinct
    have allowed' := fun q mem => allowed_of_add p.2 plain notBuiltin notWon notTyped
      (fun same => notRest (List.mem_map.mpr ⟨q, mem, same.symm⟩))
      (allowed q (List.mem_cons_of_mem _ mem))
    rw [List.foldl_cons, ih (st.add p.2 p.1) distinct' allowed'
      (fun q mem => clean q (List.mem_cons_of_mem _ mem)),
      add_resolvers st p.2 p.1 plain notBuiltin notWon (clean p List.mem_cons_self)]
    simp

theorem checkReferences_resolvers (st : BuildState σ) (t : NamedType) :
    (st.checkReferences t).resolvers = st.resolvers := by
  rw [checkReferences_eq]
  rfl

theorem checkImplementations_resolvers (st : BuildState σ) (t : NamedType) :
    (st.checkImplementations t).resolvers = st.resolvers := by
  unfold checkImplementations
  split
  · rfl
  refine foldl_resolvers _ _ fun st' ifaceName => ?_
  split
  · split
    · rfl
    · rw [apply_ite BuildState.resolvers]
      split <;>
      · refine foldl_resolvers _ _ fun st want => ?_
        split
        · rfl
        · split <;> rfl
  · rfl

theorem checkType_resolvers (st : BuildState σ) (check : BuildState σ → NamedType → BuildState σ)
    (keeps : ∀ st t, (check st t).resolvers = st.resolvers) (name : String) :
    (st.checkType check name).resolvers = st.resolvers := by
  unfold checkType
  split
  · exact keeps _ _
  · rfl

theorem checkRoots_resolvers (st : BuildState σ) (query mutation subscription : String) :
    (st.checkRoots query mutation subscription).resolvers = st.resolvers := by
  rw [checkRoots_eq]
  rfl

end BuildState

variable {b : SchemaBuilder σ} {es : ExecutableSchema σ}

theorem checkedState_resolvers : b.checkedState.resolvers = b.addedState.resolvers := by
  rw [checkedState_eq, implementedState, BuildState.checkRoots_resolvers]
  refine (BuildState.foldl_resolvers _ _ fun st p => ?_).trans
    (BuildState.foldl_resolvers _ _ fun st p => ?_)
  · exact BuildState.checkType_resolvers st _ BuildState.checkImplementations_resolvers _
  · exact BuildState.checkType_resolvers st _ BuildState.checkReferences_resolvers _

theorem addedState_resolvers (fresh : b.FreshNames) (clean : ∀ d ∈ b.definitions, d.added.1 = []) :
    b.addedState.resolvers = b.definitions.flatMap Definition.resolved := by
  have distinct : (b.definitions.zipIdx.map (·.1.name)).Nodup := by
    rw [map_zipIdx_fst b.definitions (·.name)]
    exact fresh.distinct
  rw [addedState, BuildState.foldl_add_resolvers _ _ distinct (fun p mem => by
      have defined := List.fst_mem_of_mem_zipIdx mem
      exact ⟨fresh.unreserved _ defined, fresh.notBuiltin _ defined, by simp,
        fresh.notBuiltin _ defined⟩)
    (fun p mem => clean _ (List.fst_mem_of_mem_zipIdx mem)),
    flatMap_zipIdx_fst b.definitions Definition.resolved]
  rfl

theorem resolvers_of_finish (accepted : b.finish = .ok es) :
    es.resolvers = b.definitions.flatMap Definition.resolved := by
  obtain ⟨fresh, clean, -⟩ := finish_ok_lookup accepted
  rw [finish_eq] at accepted
  split at accepted
  · cases accepted
    rw [checkedState_resolvers, addedState_resolvers fresh clean]
  · cases accepted

theorem roots_of_finish (accepted : b.finish = .ok es) :
    es.raw.query = b.query ∧ es.raw.mutation = b.mutation ∧ es.raw.subscription = b.subscription := by
  rw [finish_eq] at accepted
  split at accepted
  · cases accepted
    exact ⟨rfl, rfl, rfl⟩
  · cases accepted

theorem scalar_of_builtin (accepted : b.finish = .ok es) {name : String}
    (builtin : isBuiltinTypeName name = true) :
    ∃ t, es.raw.type? name = some t ∧ t.kind = .scalar := by
  obtain ⟨-, -, lookups⟩ := finish_ok_lookup accepted
  obtain ⟨u, inBuiltins, declared⟩ := type?_declared_of_builtin (b := b) builtin
  have same := congrFun lookups name
  rw [Schema.lookup, Schema.lookup, declared, Option.map_some] at same
  obtain ⟨t, found, shaped⟩ := Option.map_eq_some_iff.mp same
  refine ⟨t, found, ?_⟩
  rw [← NamedType.shape_kind, shaped, NamedType.shape_kind]
  exact (builtinTypes_scalar u inBuiltins).1

/-- Each object definition of a build that succeeds has distinct field names, and is an object
type of its schema whose fields are the definition's, each resolved by the definition's own
field. -/
theorem object_of_finish (accepted : b.finish = .ok es) {o : ObjectDef σ}
    (mem : .object o ∈ b.definitions) :
    (o.fields.map (·.name)).Nodup ∧ ∃ t, es.raw.type? o.name = some t ∧ t.kind = .object ∧
      (∀ name, t.field? name = (o.fields.find? (·.name == name)).map FieldDef.toSchema) ∧
      ∀ name, es.fieldDef? o.name name = o.fields.find? (·.name == name) := by
  obtain ⟨fresh, clean, lookups⟩ := finish_ok_lookup accepted
  obtain ⟨-, ⟨distinct, -⟩, -⟩ := (Definition.added_clean_iff _).mp (clean _ mem)
  have declared : b.declared.type? o.name = some (Definition.object o).added.2 :=
    type?_declared_of_mem fresh mem
  have same := congrFun lookups o.name
  rw [Schema.lookup, Schema.lookup, declared, Option.map_some] at same
  obtain ⟨t, found, shaped⟩ := Option.map_eq_some_iff.mp same
  obtain ⟨kind, fields, -, -⟩ := Definition.added_members (clean _ mem)
  have entry : es.resolvers.find? (·.1 == o.name) = some (o.name, o.fields) := by
    rw [resolvers_of_finish accepted, find?_key_eq_some_iff (fun p : String × List (FieldDef σ) => p.1)
      ((Definition.resolved_names_sublist _).nodup fresh.distinct)]
    exact ⟨List.mem_flatMap.mpr ⟨.object o, mem, by simp [Definition.resolved]⟩, rfl⟩
  refine ⟨distinct, t, found, ?_, fun name => ?_, fun name => ?_⟩
  · rw [← NamedType.shape_kind, shaped, NamedType.shape_kind, kind]
    rfl
  · rw [NamedType.field?, ← NamedType.shape_fields, shaped, NamedType.shape_fields, fields]
    simp [Definition.outputFields, List.find?_map, Function.comp_def, FieldDef.toSchema]
  · simp [ExecutableSchema.fieldDef?, entry]

end SchemaBuilder

end GraphWeave
