import GraphWeave.Proofs.App.ModuleOrder
import GraphWeave.Proofs.Definition.Resolvers
import GraphWeave.Proofs.Modules.Counter
import Mathlib

/-!
The application's schema: its modules make known registry steps, so it assembles to what building
its objects directly gives, the build succeeds, and the counter is installed.
-/

namespace GraphWeave

section Sorting

variable {α : Type}

theorem orderedInsert_between {r : α → α → Prop} [DecidableRel r] {a : α} {l₁ l₂ : List α}
    (before : ∀ b ∈ l₁, ¬ r a b) (after : ∀ b ∈ l₂, r a b) :
    (l₁ ++ l₂).orderedInsert r a = l₁ ++ a :: l₂ := by
  induction l₁ with
  | nil =>
    cases l₂ with
    | nil => rfl
    | cons b l₂ => exact List.orderedInsert_cons_of_le _ _ (after b List.mem_cons_self)
  | cons b l₁ ih =>
    rw [List.cons_append, List.orderedInsert_of_not_le _ _ (before b List.mem_cons_self),
      ih fun c mem => before c (List.mem_cons_of_mem _ mem)]
    rfl

theorem mergeSort_eq_insertionSort_of_total (le : α → α → Bool)
    (trans : ∀ a b c, le a b → le b c → le a c) (total : ∀ a b, le a b || le b a) (l : List α) :
    l.mergeSort le = l.insertionSort (fun a b => le a b = true) := by
  induction l with
  | nil => simp
  | cons a l ih =>
    obtain ⟨l₁, l₂, sorted, rest, before⟩ := List.mergeSort_cons trans total a l
    have after : ∀ b ∈ l₂, le a b = true := by
      have ordered := List.pairwise_mergeSort trans total (a :: l)
      rw [sorted, List.pairwise_append, List.pairwise_cons] at ordered
      exact ordered.2.1.1
    rw [List.insertionSort_cons, ← ih, rest, sorted,
      orderedInsert_between (fun b mem => by simpa using before b mem) after]

end Sorting

namespace Registry

variable {σ : Type}

theorem declareDirect_eq_insertionSort (as : List (Appending σ)) :
    declareDirect as = fun o => { o with
      fields := o.fields ++ (injectedFields as o.name).insertionSort
        (fun f g => decide (f.name ≤ g.name) = true)
      interfaces := o.interfaces ++ (injectedInterfaces as o).insertionSort
        (fun i j => decide (i ≤ j) = true) } := by
  funext o
  have byName := mergeSort_eq_insertionSort_of_total (fun f g : FieldDef σ => decide (f.name ≤ g.name))
    (fun a b c ab bc => by simp only [decide_eq_true_eq] at *; exact le_trans ab bc)
    (fun a b => by simpa using le_total a.name b.name)
  have ordered := mergeSort_eq_insertionSort_of_total (fun i j : String => decide (i ≤ j))
    (fun a b c ab bc => by simp only [decide_eq_true_eq] at *; exact le_trans ab bc)
    (fun a b => by simpa using le_total a b)
  rw [declareDirect, byName, ordered]

theorem mem_declareDirect {as : List (Appending σ)} {a : Appending σ} (queued : a ∈ as)
    {o : ObjectDef σ} (target : a.target = o.name) {f : FieldDef σ} (field : f ∈ a.fields) :
    f ∈ (declareDirect as o).fields := by
  simp only [declareDirect, List.mem_append, List.mem_mergeSort, injectedFields, List.mem_flatMap,
    List.mem_filter]
  exact .inr ⟨a, ⟨queued, by simp [target]⟩, field⟩

/-- A field a change appends to a registered object is a field of the object type the direct
build makes, resolved by the change's own definition. -/
theorem appended_field_resolved {r : Registry σ} {as : List (Appending σ)}
    {query mutation subscription : String} {es : ExecutableSchema σ}
    (accepted : (directBuilder r as query mutation subscription).finish = .ok es)
    {o : ObjectDef σ} (registered : o ∈ r.objects) {a : Appending σ} (queued : a ∈ as)
    (target : a.target = o.name) {f : FieldDef σ} (field : f ∈ a.fields) :
    ∃ t, es.raw.type? o.name = some t ∧ t.kind = .object ∧ t.field? f.name = some f.toSchema ∧
      es.fieldDef? o.name f.name = some f := by
  have declared : .object (declareDirect as o) ∈
      (directBuilder r as query mutation subscription).definitions := by
    simp only [directBuilder, Registry.definitions, List.mem_append, List.mem_map]
    exact .inr ⟨declareDirect as o, ⟨o, registered, rfl⟩, rfl⟩
  obtain ⟨distinct, t, found, kind, fields, resolved⟩ :=
    SchemaBuilder.object_of_finish accepted declared
  have first : (declareDirect as o).fields.find? (·.name == f.name) = some f :=
    (find?_key_eq_some_iff (·.name) distinct _ _).mpr ⟨mem_declareDirect queued target field, rfl⟩
  refine ⟨t, found, kind, ?_, (resolved f.name).trans (by rw [first])⟩
  rw [fields, first]
  rfl

end Registry

namespace App

open Registry Modules

/-- The steps of all the application's modules, in order. -/
def steps : List (Step AppState) := moduleSteps.1.flatten

/-- The steps the counter's code makes: `count` on `Query`, then its two mutations on
`Mutation`. -/
def counterSteps : List (Step AppState) :=
  [.expand ⟨"Query", [Counter.countField counterSlot], [], ⟨"counter", "count"⟩⟩,
    .expand ⟨"Mutation", [Counter.mutationField counterSlot "increment" 1], [],
      ⟨"counter", "increment"⟩⟩,
    .expand ⟨"Mutation", [Counter.mutationField counterSlot "decrement" (-1)], [],
      ⟨"counter", "decrement"⟩⟩]

theorem counter_steps : moduleSteps.1[4]? = some counterSteps := rfl

theorem steps_targeted (log : List Telemetry.LogRecord) :
    (steps.flatMap Step.queued).all (targetsObject (registryOf steps log).objects) = true := by
  have same : (registryOf steps log).objects = (registryOf steps []).objects := rfl
  rw [same]
  decide +kernel

theorem assemble_eq_direct : ∃ log, assemble modules =
    (directBuilder (registryOf steps log) (steps.flatMap Step.queued) Root.queryType
      Root.mutationType "").finish.mapError .schema := by
  obtain ⟨log, assembled⟩ := assemble_eq moduleSteps.2 moduleSteps_distinct
  refine ⟨log, ?_⟩
  rw [assembled, finish_registryOf _ _ _ _ log moduleSteps_distinct]
  exact if_pos (steps_targeted log)

/-- The application's modules assemble into a schema. -/
theorem assemble_ok : ∃ app, assemble modules = .ok app := by
  obtain ⟨log, direct⟩ := assemble_eq_direct
  have built : ((directBuilder (registryOf steps log) (steps.flatMap Step.queued) Root.queryType
      Root.mutationType "").finish).isOk = true := by
    have same : directBuilder (registryOf steps log) (steps.flatMap Step.queued) Root.queryType
        Root.mutationType "" = directBuilder (registryOf steps []) (steps.flatMap Step.queued)
          Root.queryType Root.mutationType "" := rfl
    rw [same, directBuilder, declareDirect_eq_insertionSort]
    decide +kernel
  cases finished : (directBuilder (registryOf steps log) (steps.flatMap Step.queued)
      Root.queryType Root.mutationType "").finish with
  | error e =>
    rw [finished] at built
    cases built
  | ok app => exact ⟨app, by rw [direct, finished]; rfl⟩

theorem direct_of_assembled {app : ExecutableSchema AppState} (assembled : assemble modules = .ok app) :
    ∃ log, (directBuilder (registryOf steps log) (steps.flatMap Step.queued) Root.queryType
      Root.mutationType "").finish = .ok app := by
  obtain ⟨log, direct⟩ := assemble_eq_direct
  refine ⟨log, ?_⟩
  rw [direct] at assembled
  cases finished : (directBuilder (registryOf steps log) (steps.flatMap Step.queued)
      Root.queryType Root.mutationType "").finish <;>
    simp_all [Except.mapError]

theorem appended_resolved {app : ExecutableSchema AppState} (assembled : assemble modules = .ok app)
    {s : Step AppState} (made : s ∈ steps) {a : Appending AppState} (asked : a ∈ s.queued)
    {f : FieldDef AppState} (field : f ∈ a.fields) :
    ∃ t, app.raw.type? a.target = some t ∧ t.field? f.name = some f.toSchema ∧
      app.fieldDef? a.target f.name = some f := by
  obtain ⟨log, accepted⟩ := direct_of_assembled assembled
  have queued : a ∈ steps.flatMap Step.queued := List.mem_flatMap.mpr ⟨s, made, asked⟩
  obtain ⟨o, registered, named⟩ :=
    targetsObject_iff.mp (List.all_eq_true.mp (steps_targeted log) a queued)
  obtain ⟨t, found, -, typed, resolved⟩ :=
    appended_field_resolved accepted registered queued named.symm field
  rw [named] at found resolved
  exact ⟨t, found, typed, resolved⟩

theorem counter_resolved {app : ExecutableSchema AppState} (assembled : assemble modules = .ok app)
    {target : String} {f : FieldDef AppState} {provenance : Provenance}
    (made : .expand ⟨target, [f], [], provenance⟩ ∈ counterSteps) :
    ∃ t, app.raw.type? target = some t ∧ t.field? f.name = some f.toSchema ∧
      app.fieldDef? target f.name = some f :=
  appended_resolved assembled (List.mem_flatten.mpr ⟨_, List.mem_of_getElem? counter_steps, made⟩)
    List.mem_cons_self List.mem_cons_self

/-- The assembled application runs the counter as it installs it: `Int` is a scalar, and the
`Mutation` and `Query` roots resolve the counter's fields with the counter's own definitions. -/
theorem counter_installed {app : ExecutableSchema AppState} (assembled : assemble modules = .ok app) :
    Counter.Installed app counterSlot := by
  obtain ⟨log, accepted⟩ := direct_of_assembled assembled
  obtain ⟨queryRoot, mutationRoot, -⟩ := SchemaBuilder.roots_of_finish accepted
  obtain ⟨Q, queryType, countType, countResolved⟩ :=
    counter_resolved assembled List.mem_cons_self
  obtain ⟨M, mutationType, incrementType, incrementResolved⟩ :=
    counter_resolved assembled (List.mem_cons_of_mem _ List.mem_cons_self)
  obtain ⟨M', mutationType', decrementType, decrementResolved⟩ :=
    counter_resolved assembled (List.mem_cons_of_mem _ (List.mem_cons_of_mem _ List.mem_cons_self))
  obtain rfl : M = M' := Option.some.inj (mutationType.symm.trans mutationType')
  refine ⟨SchemaBuilder.scalar_of_builtin accepted (by decide),
    ⟨M, ?_, Schema.type?_name_eq mutationType, fun name sign named => ?_⟩,
    ⟨Q, ?_, Schema.type?_name_eq queryType, countType, countResolved⟩⟩
  · rw [Schema.mutationType?, mutationRoot]
    exact mutationType
  · rcases Counter.signOf?_eq_some named with ⟨rfl, rfl⟩ | ⟨rfl, rfl⟩
    · exact ⟨incrementType, incrementResolved⟩
    · exact ⟨decrementType, decrementResolved⟩
  · rw [Schema.queryType?, queryRoot]
    exact queryType

end App

end GraphWeave
