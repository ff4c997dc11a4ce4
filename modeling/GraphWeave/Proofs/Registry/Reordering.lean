import GraphWeave.Proofs.Registry.Injection
import GraphWeave.Proofs.Definition.Reordering
import Mathlib

/-!
Registration in any order: a session of steps that register distinct definitions and append to
objects finishes alike, seen without order, for the steps in any order.
-/

namespace GraphWeave

namespace Definition

variable {σ : Type}

/-- The registration of a definition in its table. -/
def edit : Definition σ → Registry.Edit σ
  | .object o => .registerObject o
  | .interface d => .registerInterface d
  | .union d => .registerUnion d
  | .enum d => .registerEnum d
  | .inputObject d => .registerInputObject d
  | .scalar d => .registerScalar d

/-! The definition of each kind that a definition defines, if it is one of that kind. -/

def object? : Definition σ → Option (ObjectDef σ)
  | .object o => some o
  | _ => none

def interface? : Definition σ → Option (InterfaceDef σ)
  | .interface d => some d
  | _ => none

def union? : Definition σ → Option UnionDef
  | .union d => some d
  | _ => none

def enum? : Definition σ → Option EnumDef
  | .enum d => some d
  | _ => none

def inputObject? : Definition σ → Option InputObjectDef
  | .inputObject d => some d
  | _ => none

def scalar? : Definition σ → Option ScalarDef
  | .scalar d => some d
  | _ => none

end Definition

namespace Registry

variable {σ : Type}

/-- A step whose place in a session does not matter: registering a definition, or asking for a
change that appends to an object, by expanding it or by injecting fields into it. -/
inductive Step (σ : Type) where
  | register (d : Definition σ)
  | expand (a : Appending σ)
  | inject (target module : String) (fields : List (FieldDef σ))

namespace Step

/-- The call that makes the step. -/
def call : Step σ → Call σ
  | .register d => .edit d.edit
  | .expand a => .edit (.expandObject a.target (some fun o => some (a.apply o)) a.provenance)
  | .inject target module fields => .injectFields target module (fields.map some)

/-- The kind and name a registration takes. -/
def key : Step σ → Option (TypeKind × String)
  | .register d => some (d.kind, d.name)
  | _ => none

/-- The definition a step registers, if it registers one. -/
def definition? : Step σ → Option (Definition σ)
  | .register d => some d
  | _ => none

/-- The changes a step asks for, in order. -/
def queued : Step σ → List (Appending σ)
  | .register _ => []
  | .expand a => [a]
  | .inject target module fields => fields.map fun f => ⟨target, [f], [], ⟨module, f.name⟩⟩

end Step

/-- The registry that making the steps in order leaves, with a log: each table holds its
definitions in the order they came, the queue the changes in the order they were asked for. -/
def registryOf (steps : List (Step σ)) (log : List Telemetry.LogRecord) : Registry σ :=
  let ds := steps.filterMap Step.definition?
  { objects := ds.filterMap Definition.object?
    inputs := ds.filterMap Definition.inputObject?
    enums := ds.filterMap Definition.enum?
    unions := ds.filterMap Definition.union?
    interfaces := ds.filterMap Definition.interface?
    scalars := ds.filterMap Definition.scalar?
    bases := (ds.filterMap Definition.object?).map registeredCounts
    pending := (steps.flatMap Step.queued).map Appending.toInjection
    log }

@[simp] theorem registryOf_nil : registryOf ([] : List (Step σ)) [] = {} := rfl

@[simp] theorem registryOf_state (steps : List (Step σ)) (log : List Telemetry.LogRecord) :
    (registryOf steps log).state = .accumulating := rfl

theorem key_mem_of_table {α : Type} {f : Definition σ → Option α} {name : α → String}
    {k : TypeKind} (sound : ∀ d x, f d = some x → d.kind = k ∧ d.name = name x)
    {done : List (Step σ)} {x : α} (mem : x ∈ (done.filterMap Step.definition?).filterMap f) :
    (k, name x) ∈ done.filterMap Step.key := by
  obtain ⟨d, registered, found⟩ := List.mem_filterMap.mp mem
  obtain ⟨s, member, defined⟩ := List.mem_filterMap.mp registered
  obtain ⟨kind, named⟩ := sound d x found
  cases s with
  | register d' =>
    cases defined
    exact List.mem_filterMap.mpr ⟨_, member, by rw [Step.key, kind, named]⟩
  | expand => cases defined
  | inject => cases defined

theorem any_name_eq_false {α : Type} {f : Definition σ → Option α} {name : α → String}
    {k : TypeKind} (sound : ∀ d x, f d = some x → d.kind = k ∧ d.name = name x)
    {done : List (Step σ)} {n : String} (absent : (k, n) ∉ done.filterMap Step.key) :
    ((done.filterMap Step.definition?).filterMap f).any (name · == n) = false := by
  rw [List.any_eq_false]
  intro x mem same
  have keyed := key_mem_of_table sound mem
  rw [beq_iff_eq.mp same] at keyed
  exact absent keyed

theorem refusal_registryOf (done : List (Step σ)) (d : Definition σ) (log : List Telemetry.LogRecord)
    (absent : (d.kind, d.name) ∉ done.filterMap Step.key) :
    d.edit.refusal (registryOf done log) = none := by
  cases d <;>
  · simp only [Definition.edit, Edit.refusal, registryOf, Definition.kind, Definition.name]
      at absent ⊢
    rw [any_name_eq_false ?_ absent]
    · rfl
    · intro d x found
      cases d <;> simp_all [Definition.object?, Definition.interface?, Definition.union?,
        Definition.enum?, Definition.inputObject?, Definition.scalar?, Definition.kind,
        Definition.name]

theorem setNamed_of_absent {α : Type} (name : α → String) {xs : List α} {x : α}
    (absent : xs.any (name · == name x) = false) : setNamed name xs x = xs ++ [x] := by
  unfold setNamed
  rw [if_neg (by simp [absent])]

/-- An accepted registration adds its definition at the end of its table. -/
theorem apply_registryOf (done : List (Step σ)) (d : Definition σ) (log : List Telemetry.LogRecord)
    (absent : (d.kind, d.name) ∉ done.filterMap Step.key) :
    d.edit.apply (registryOf done log) = registryOf (done ++ [.register d]) log := by
  cases d with
  | object o =>
    have fresh : (registryOf done log).objects.any (·.name == o.name) = false := by
      simp only [registryOf]
      exact any_name_eq_false (k := .object)
        (by intro d x h; cases d <;> simp_all [Definition.object?, Definition.kind, Definition.name])
        absent
    have objects : setNamed (·.name) (registryOf done log).objects o =
        (registryOf done log).objects ++ [o] := setNamed_of_absent _ fresh
    show (registryOf done log).withObject o = _
    simp only [withObject, objects]
    rw [show (registryOf done log).bases = (registryOf done log).objects.map registeredCounts from rfl,
      show (o.name, o.fields.length, o.interfaces.length) = registeredCounts o from rfl,
      setNamed_map (fun o : ObjectDef σ => o.name) (fun b : String × Nat × Nat => b.1) registeredCounts
        (fun _ => rfl), objects]
    simp [registryOf, List.filterMap_append, Step.definition?, Definition.object?,
      Definition.inputObject?, Definition.enum?, Definition.union?, Definition.interface?,
      Definition.scalar?, Step.queued, registeredCounts]
  | interface _ | union _ | enum _ | inputObject _ | scalar _ =>
    simp [Definition.edit, Edit.apply, registryOf, List.filterMap_append, Step.definition?,
      Definition.object?, Definition.inputObject?, Definition.enum?, Definition.union?,
      Definition.interface?, Definition.scalar?, Step.queued]

theorem leadingFields_map_some (fields : List (FieldDef σ)) : leadingFields (fields.map some) = fields := by
  induction fields with
  | nil => rfl
  | cons f rest ih => simp [leadingFields, ih]

/-- A step whose kind and name no earlier step took is made: a registration adds its definition
to its table, a change is queued. -/
theorem exec_step (done : List (Step σ)) (s : Step σ) (log : List Telemetry.LogRecord)
    (absent : ∀ k ∈ s.key, k ∉ done.filterMap Step.key) :
    ∃ log', exec s.call.run (registryOf done log) = (.ok (), registryOf (done ++ [s]) log') := by
  cases s with
  | register d =>
    refine ⟨log, ?_⟩
    have accepted := refusal_registryOf done d log (absent _ rfl)
    rw [Step.call, Call.run, Edit.exec_run, Edit.outcome_applied _ rfl accepted,
      apply_registryOf done d log (absent _ rfl)]
  | expand a =>
    refine ⟨log, ?_⟩
    rw [Step.call, Call.run, Edit.exec_run, Edit.outcome_applied _ rfl rfl]
    simp [Edit.apply, registryOf, List.filterMap_append, List.flatMap_append, Step.definition?,
      Step.queued, Appending.toInjection]
  | inject target module fields =>
    refine ⟨log, ?_⟩
    rw [Step.call, Call.run, exec_injectFields_open _ _ _ rfl, leadingFields_map_some]
    simp [registryOf, List.filterMap_append, List.flatMap_append, Step.definition?, Step.queued,
      Appending.fieldInjection_eq, List.all_map]

theorem key_fresh {done later : List (Step σ)} {s : Step σ} (mem : s ∈ later)
    (distinct : ((done ++ later).filterMap Step.key).Nodup) :
    ∀ k ∈ s.key, k ∉ done.filterMap Step.key := by
  intro k keyed taken
  have listed : k ∈ later.filterMap Step.key :=
    List.mem_filterMap.mpr ⟨s, mem, Option.mem_def.mp keyed⟩
  rw [List.filterMap_append] at distinct
  exact (List.nodup_append.mp distinct).2.2 k taken k listed rfl

/-- A session of steps, no two registering one kind and name, leaves each table holding its
definitions in the order they came and the queue holding the changes in the order asked for. -/
theorem afterActions_steps (steps : List (Step σ)) (distinct : (steps.filterMap Step.key).Nodup) :
    ∃ log, afterActions {} (steps.map fun s => .call s.call) = registryOf steps log := by
  suffices run : ∀ (rest done : List (Step σ)) (log : List Telemetry.LogRecord),
      ((done ++ rest).filterMap Step.key).Nodup →
      ∃ log', afterActions (registryOf done log) (rest.map fun s => .call s.call) =
        registryOf (done ++ rest) log' from run steps [] [] distinct
  intro rest
  induction rest with
  | nil =>
    intro done log _
    exact ⟨log, by simp⟩
  | cons s rest ih =>
    intro done log distinct
    obtain ⟨log', made⟩ := exec_step done s log (key_fresh List.mem_cons_self distinct)
    obtain ⟨log'', ran⟩ := ih (done ++ [s]) log' (by simpa using distinct)
    refine ⟨log'', ?_⟩
    rw [List.map_cons, afterActions_cons]
    show afterActions (exec s.call.run (registryOf done log)).2 _ = _
    rw [made]
    simpa using ran

theorem objectNames_registryOf (steps : List (Step σ)) (log : List Telemetry.LogRecord) :
    (registryOf steps log).objects.map (·.name) =
      (steps.filterMap Step.key).filterMap fun k => if k.1 = .object then some k.2 else none := by
  induction steps with
  | nil => rfl
  | cons s rest ih =>
    simp only [registryOf] at ih ⊢
    cases s with
    | register d =>
      cases d <;> simp [List.filterMap_cons, Step.definition?, Step.key, Definition.object?,
        Definition.kind, Definition.name, ih]
    | expand => simpa [List.filterMap_cons, Step.definition?, Step.key] using ih
    | inject => simpa [List.filterMap_cons, Step.definition?, Step.key] using ih

theorem recorded_registryOf (steps : List (Step σ)) (log : List Telemetry.LogRecord)
    (distinct : (steps.filterMap Step.key).Nodup) : Recorded (registryOf steps log) where
  distinct := by
    rw [objectNames_registryOf]
    refine distinct.filterMap ?_
    intro k k' n first second
    split at first <;> split at second <;> simp_all [Prod.ext_iff]
  counts := rfl

/-! ### Changes whose target is no object -/

theorem targetsObject_map_applyFor (objs : List (ObjectDef σ)) (as : List (Appending σ))
    (a : Appending σ) : targetsObject (objs.map (applyFor as)) a = targetsObject objs a := by
  simp [targetsObject, List.any_map, Function.comp_def]

/-- When some change targets no registered object, the first pass makes the others and a second
makes none: the changes whose target is no object are stuck, in order, each with the reason its
target is not an object. -/
theorem applyAll_stuck (fuel : Nat) (r : Registry σ) (as : List (Appending σ))
    (distinct : (r.objects.map (·.name)).Nodup)
    (waiting : as.any (fun a => !targetsObject r.objects a) = true) :
    (applyAll (fuel + 2) r (as.map Appending.toInjection) []).2 =
      (as.filter fun a => !targetsObject r.objects a).map fun a =>
        ⟨a.target, a.provenance, r.missingReason a.target⟩ := by
  obtain ⟨log, first⟩ := applyPass_appending r as distinct
  have kept : ∀ a, targetsObject (r.objects.map (applyFor as)) a = targetsObject r.objects a :=
    targetsObject_map_applyFor r.objects as
  have distinct' : ((r.objects.map (applyFor as)).map (·.name)).Nodup := by
    simpa [List.map_map, Function.comp_def] using distinct
  obtain ⟨log', second⟩ := applyPass_appending { r with objects := r.objects.map (applyFor as), log }
    (as.filter fun a => !targetsObject r.objects a) distinct'
  have stillLeft : ((as.filter fun a => !targetsObject r.objects a).filter
      fun a => !targetsObject (r.objects.map (applyFor as)) a) =
        as.filter fun a => !targetsObject r.objects a := by
    rw [List.filter_eq_self]
    intro a mem
    rw [kept]
    exact (List.mem_filter.mp mem).2
  have noneFound : (as.filter fun a => !targetsObject r.objects a).any
      (targetsObject (r.objects.map (applyFor as))) = false := by
    rw [List.any_eq_false]
    intro a mem
    rw [kept]
    simpa using (List.mem_filter.mp mem).2
  simp only [stillLeft, noneFound] at second
  have left : as.filter (fun a => !targetsObject r.objects a) ≠ [] := by
    simpa [List.filter_eq_nil_iff, List.any_eq_true] using waiting
  generalize named : as.filter (fun a => !targetsObject r.objects a) = rest at first second left
  cases as with
  | nil => simp at waiting
  | cons a others =>
    cases rest with
    | nil => exact absurd rfl left
    | cons b more =>
      rw [List.map_cons] at first
      simp only [List.map_cons] at second
      by_cases progress : (a :: others).any (targetsObject r.objects) = true
      · simp only [List.map_cons, applyAll, first, progress, if_true, second, Bool.false_eq_true,
          if_false]
        simp only [List.nil_append, List.map_map, Function.comp_def]
        rfl
      · simp only [List.map_cons, applyAll, first, Bool.eq_false_iff.mpr progress,
          Bool.false_eq_true, if_false]
        simp only [List.nil_append, List.map_map, Function.comp_def]
        rfl

/-- The changes whose target is no registered object, as finishing reports them stuck. -/
def stuckOf (r : Registry σ) (as : List (Appending σ)) : List StuckInjection :=
  (as.filter fun a => !targetsObject r.objects a).map fun a =>
    ⟨a.target, a.provenance, r.missingReason a.target⟩

theorem exec_resolveInjections_stuck (r : Registry σ) (as : List (Appending σ))
    (recorded : Recorded r) (queued : r.pending = as.map Appending.toInjection)
    (waiting : as.any (fun a => !targetsObject r.objects a) = true) :
    (exec resolveInjections r).1 = .error (.stuck (stuckOf r as)) := by
  cases as with
  | nil => simp at waiting
  | cons a rest =>
    have stuck := applyAll_stuck rest.length { r with pending := [] } (a :: rest) recorded.distinct
      waiting
    have fuel : ((a :: rest).map Appending.toInjection).length + 1 = rest.length + 2 := by simp
    simp only [resolveInjections, exec_bind, exec_get, andThen_ok]
    rw [queued, fuel]
    rcases applied : applyAll (rest.length + 2) { r with pending := [] }
      ((a :: rest).map Appending.toInjection) [] with ⟨r', found⟩
    have listed : found = stuckOf { r with pending := [] } (a :: rest) := by
      rw [applied] at stuck
      exact stuck
    have left : (a :: rest).filter (fun a => !targetsObject r.objects a) ≠ [] := by
      obtain ⟨x, mem, found⟩ := List.any_eq_true.mp waiting
      exact List.ne_nil_of_mem (List.mem_filter.mpr ⟨mem, found⟩)
    have reported : found ≠ [] := by
      rw [listed]
      simpa [stuckOf] using left
    simp only [exec_set, andThen_ok, exec_bind, exec_forIn_note]
    rw [if_pos (by simpa using reported)]
    simp only [listed]
    rfl

/-- Finishing a recorded open registry, when some waiting change targets no registered object,
fails with the changes whose target is no object stuck. -/
theorem exec_finish_stuck (r : Registry σ) (as : List (Appending σ))
    (isOpen : r.state = .accumulating) (recorded : Recorded r)
    (queued : r.pending = as.map Appending.toInjection)
    (waiting : as.any (fun a => !targetsObject r.objects a) = true)
    (query mutation subscription : String) :
    (exec (finish query mutation subscription) r).1 = .error (.stuck (stuckOf r as)) := by
  have stuck := exec_resolveInjections_stuck { r with state := .finalizing } as
    ⟨recorded.distinct, recorded.counts⟩ queued waiting
  simp only [finish, exec_bind, exec_checkAccumulating, isOpen, if_true, andThen_ok, exec_modify,
    exec_tryCatch]
  rcases resolved : exec resolveInjections { r with state := .finalizing } with ⟨outcome, r'⟩
  rw [resolved] at stuck
  cases stuck
  simp [exec_bind]
  rfl

/-! ### The targets a stuck registry reports -/

theorem eraseDups_nodup {α : Type} [BEq α] [LawfulBEq α] (l : List α) : l.eraseDups.Nodup := by
  suffices bounded : ∀ n (l : List α), l.length ≤ n → l.eraseDups.Nodup from bounded _ l le_rfl
  intro n
  induction n with
  | zero =>
    intro l short
    rw [List.length_eq_zero_iff.mp (Nat.le_zero.mp short)]
    exact List.nodup_nil
  | succ n ih =>
    intro l short
    cases l with
    | nil => exact List.nodup_nil
    | cons a rest =>
      rw [List.eraseDups_cons]
      refine List.nodup_cons.mpr ⟨?_, ih _ ((List.length_filter_le _ _).trans (by simpa using short))⟩
      intro repeated
      simpa using (List.mem_filter.mp (List.mem_eraseDups.mp repeated)).2

theorem eraseDups_perm {α : Type} [BEq α] [LawfulBEq α] {l₁ l₂ : List α} (same : l₁.Perm l₂) :
    l₁.eraseDups.Perm l₂.eraseDups := by
  rw [List.perm_ext_iff_of_nodup (eraseDups_nodup _) (eraseDups_nodup _)]
  intro x
  rw [List.mem_eraseDups, List.mem_eraseDups, same.mem_iff]

theorem stuckTargets_spec (injections : List StuckInjection) :
    (RegistryError.stuckTargets injections).Nodup ∧
      (RegistryError.stuckTargets injections).Pairwise (· ≤ ·) ∧
      ∀ t, t ∈ RegistryError.stuckTargets injections ↔ ∃ s ∈ injections, s.target = t := by
  refine ⟨(List.mergeSort_perm _ _).nodup_iff.mpr (eraseDups_nodup _),
    List.pairwise_mergeSort' (· ≤ ·) _, fun t => ?_⟩
  rw [RegistryError.stuckTargets, List.mem_mergeSort, List.mem_eraseDups, List.mem_map]

theorem stuckTargets_perm {injections injections' : List StuckInjection}
    (same : (injections'.map (·.target)).Perm (injections.map (·.target))) :
    RegistryError.stuckTargets injections' = RegistryError.stuckTargets injections :=
  mergeSort_eq_of_perm (eraseDups_perm same)

/-! ### Declaring the objects directly, for changes in any order -/

section Reordered

variable {as as' : List (Appending σ)}

theorem injectedFields_perm (reordered : as'.Perm as) (name : String) :
    (injectedFields as' name).Perm (injectedFields as name) :=
  (reordered.filter _).flatMap_right _

theorem declareDirect_fields_perm (reordered : as'.Perm as) (o : ObjectDef σ) :
    (declareDirect as' o).fields.Perm (declareDirect as o).fields :=
  ((List.mergeSort_perm _ _).trans ((injectedFields_perm reordered o.name).trans
    (List.mergeSort_perm _ _).symm)).append_left o.fields

theorem declareDirect_perm (reordered : as'.Perm as) {o : ObjectDef σ}
    (distinct : ((declareDirect as o).fields.map (·.name)).Nodup) :
    declareDirect as' o = declareDirect as o := by
  simp only [declareDirect, List.map_append] at distinct
  have injectedDistinct : ((injectedFields as o.name).map (·.name)).Nodup :=
    ((List.mergeSort_perm _ _).map _).nodup_iff.mp (List.nodup_append.mp distinct).2.1
  have fields := mergeSort_name_eq_of_perm FieldDef.name (injectedFields_perm reordered o.name)
    injectedDistinct
  have interfaces : (injectedInterfaces as' o).mergeSort (fun i j => decide (i ≤ j)) =
      (injectedInterfaces as o).mergeSort fun i j => decide (i ≤ j) :=
    mergeSort_eq_of_perm (((reordered.filter _).flatMap_right _).filter _).dedup
  simp only [declareDirect, fields, interfaces]

end Reordered

theorem table_perm {α : Type} (f : Definition σ → Option α) {steps steps' : List (Step σ)}
    (reordered : steps'.Perm steps) :
    ((steps'.filterMap Step.definition?).filterMap f).Perm
      ((steps.filterMap Step.definition?).filterMap f) :=
  (reordered.filterMap _).filterMap _

theorem object_mem_directBuilder {r : Registry σ} (as : List (Appending σ)) {o : ObjectDef σ}
    (mem : o ∈ r.objects) (query mutation subscription : String) :
    .object (declareDirect as o) ∈ (directBuilder r as query mutation subscription).definitions := by
  simp only [directBuilder, definitions, List.mem_append, List.mem_map]
  exact Or.inr ⟨declareDirect as o, ⟨o, mem, rfl⟩, rfl⟩

/-- Declaring the objects directly builds, for the steps in any order, the same text, or
nothing in both orders. -/
theorem directBuilder_sdl_perm {steps steps' : List (Step σ)} (reordered : steps'.Perm steps)
    (log log' : List Telemetry.LogRecord) (query mutation subscription : String) :
    (directBuilder (registryOf steps' log') (steps'.flatMap Step.queued) query mutation
        subscription).finish.toOption.map ExecutableSchema.sdl =
      (directBuilder (registryOf steps log) (steps.flatMap Step.queued) query mutation
        subscription).finish.toOption.map ExecutableSchema.sdl := by
  have queued := reordered.flatMap_right Step.queued
  have objects := table_perm Definition.object? reordered
  by_cases distinct : ∀ o ∈ (registryOf steps log).objects,
      ((declareDirect (steps.flatMap Step.queued) o).fields.map (·.name)).Nodup
  · have declared : (registryOf steps' log').objects.map (declareDirect (steps'.flatMap Step.queued)) =
        (registryOf steps' log').objects.map (declareDirect (steps.flatMap Step.queued)) :=
      List.map_congr_left fun o mem => declareDirect_perm queued (distinct o (objects.subset mem))
    have definitions : (directBuilder (registryOf steps' log') (steps'.flatMap Step.queued) query
        mutation subscription).definitions.Perm (directBuilder (registryOf steps log)
          (steps.flatMap Step.queued) query mutation subscription).definitions := by
      simp only [directBuilder, definitions, declared]
      exact (((((table_perm _ reordered).map _).append ((table_perm _ reordered).map _)).append
        ((table_perm _ reordered).map _)).append ((table_perm _ reordered).map _)).append
          ((table_perm _ reordered).map _) |>.append ((objects.map _).map _)
    have rebuilt : directBuilder (registryOf steps' log') (steps'.flatMap Step.queued) query mutation
        subscription = { directBuilder (registryOf steps log) (steps.flatMap Step.queued) query
          mutation subscription with
          definitions := (directBuilder (registryOf steps' log') (steps'.flatMap Step.queued) query
            mutation subscription).definitions } := rfl
    rw [rebuilt]
    exact SchemaBuilder.finish_sdl_perm _ definitions
  · push Not at distinct
    obtain ⟨o, mem, repeated⟩ := distinct
    have repeated' : ¬ ((declareDirect (steps'.flatMap Step.queued) o).fields.map (·.name)).Nodup :=
      fun nodup => repeated (((declareDirect_fields_perm queued o).map _).nodup_iff.mp nodup)
    rw [SchemaBuilder.finish_toOption_of_repeated _
        (object_mem_directBuilder _ (objects.symm.subset mem) _ _ _) repeated',
      SchemaBuilder.finish_toOption_of_repeated _ (object_mem_directBuilder _ mem _ _ _) repeated]

/-! ### Finishing in any order -/

/-- What finishing answers, seen without the order of the steps before it: the text of the schema
built, the targets of the changes that were stuck, or only the kind of another error. -/
inductive Finished where
  | built (sdl : String)
  | stuck (targets : List String)
  | rejected
  | refused
deriving DecidableEq, Repr

/-- What a finish answered, seen without the order of the steps before it. -/
def Finished.of : Except RegistryError (ExecutableSchema σ) → Finished
  | .ok es => .built es.sdl
  | .error (.stuck injections) => .stuck (RegistryError.stuckTargets injections)
  | .error (.schema _) => .rejected
  | .error _ => .refused

theorem Finished.of_mapError (built : Except SchemaError (ExecutableSchema σ)) :
    Finished.of (built.mapError .schema) =
      ((built.toOption.map ExecutableSchema.sdl).map Finished.built).getD .rejected := by
  cases built <;> rfl

theorem targetsObject_registryOf (steps : List (Step σ)) (log : List Telemetry.LogRecord)
    (a : Appending σ) :
    targetsObject (registryOf steps log).objects a = true ↔
      (TypeKind.object, a.target) ∈ steps.filterMap Step.key := by
  have named : targetsObject (registryOf steps log).objects a = true ↔
      a.target ∈ (registryOf steps log).objects.map (·.name) := by
    rw [targetsObject_iff, List.mem_map]
  rw [named, objectNames_registryOf]
  simp [List.mem_filterMap]

section Finishing

variable (query mutation subscription : String)

/-- Finishing the registry the steps leave builds the objects declared directly when every
change the steps ask for targets a registered object, and otherwise fails with the changes whose
target is no object stuck. -/
theorem finish_registryOf (steps : List (Step σ)) (log : List Telemetry.LogRecord)
    (distinct : (steps.filterMap Step.key).Nodup) :
    (exec (finish query mutation subscription) (registryOf steps log)).1 =
      if (steps.flatMap Step.queued).all (targetsObject (registryOf steps log).objects) then
        (directBuilder (registryOf steps log) (steps.flatMap Step.queued) query mutation
          subscription).finish.mapError .schema
      else .error (.stuck (stuckOf (registryOf steps log) (steps.flatMap Step.queued))) := by
  split
  · rename_i targeted
    exact (exec_finish_appending _ _ rfl (recorded_registryOf steps log distinct) rfl
      (fun a mem => targetsObject_iff.mp (List.all_eq_true.mp targeted a mem)) _ _ _).1
  · rename_i notAll
    have waiting : (steps.flatMap Step.queued).any
        (fun a => !targetsObject (registryOf steps log).objects a) = true := by
      simpa [List.all_eq_true, List.any_eq_true] using notAll
    exact exec_finish_stuck _ _ rfl (recorded_registryOf steps log distinct) rfl waiting _ _ _

/-- Finishing the registry the steps leave answers the same, seen without order, for the steps
in any order. -/
theorem finished_registryOf_perm {steps steps' : List (Step σ)} (reordered : steps'.Perm steps)
    (distinct : (steps.filterMap Step.key).Nodup) (log log' : List Telemetry.LogRecord) :
    Finished.of (exec (finish query mutation subscription) (registryOf steps' log')).1 =
      Finished.of (exec (finish query mutation subscription) (registryOf steps log)).1 := by
  have distinct' : (steps'.filterMap Step.key).Nodup := (reordered.filterMap _).nodup_iff.mpr distinct
  have queued := reordered.flatMap_right Step.queued
  have targets : targetsObject (registryOf steps' log').objects =
      targetsObject (registryOf steps log).objects := by
    funext a
    exact (table_perm Definition.object? reordered).any_eq
  rw [finish_registryOf _ _ _ steps' log' distinct', finish_registryOf _ _ _ steps log distinct,
    targets, queued.all_eq]
  split
  · rw [Finished.of_mapError, Finished.of_mapError, directBuilder_sdl_perm reordered]
  · have stuck : ((stuckOf (registryOf steps' log') (steps'.flatMap Step.queued)).map (·.target)).Perm
        ((stuckOf (registryOf steps log) (steps.flatMap Step.queued)).map (·.target)) := by
      simp only [stuckOf, List.map_map, Function.comp_def, targets]
      exact (queued.filter _).map _
    simp only [Finished.of, stuckTargets_perm stuck]

/-- Finishing the registry the steps leave is stuck exactly when a change targets a name no step
registered an object under, and then it reports, each once and sorted, the targets of such
changes. -/
theorem finish_registryOf_stuck (steps : List (Step σ)) (log : List Telemetry.LogRecord)
    (distinct : (steps.filterMap Step.key).Nodup) :
    ((∃ injections, (exec (finish query mutation subscription) (registryOf steps log)).1 =
        .error (.stuck injections)) ↔
      ∃ a ∈ steps.flatMap Step.queued, (TypeKind.object, a.target) ∉ steps.filterMap Step.key) ∧
    ∀ injections, (exec (finish query mutation subscription) (registryOf steps log)).1 =
        .error (.stuck injections) →
      (RegistryError.stuckTargets injections).Nodup ∧
        (RegistryError.stuckTargets injections).Pairwise (· ≤ ·) ∧
        ∀ t, t ∈ RegistryError.stuckTargets injections ↔
          (∃ a ∈ steps.flatMap Step.queued, a.target = t) ∧
            (TypeKind.object, t) ∉ steps.filterMap Step.key := by
  rw [finish_registryOf _ _ _ steps log distinct]
  have targets := targetsObject_registryOf steps log
  split
  · rename_i targeted
    have never : ∀ injections, (directBuilder (registryOf steps log) (steps.flatMap Step.queued)
        query mutation subscription).finish.mapError RegistryError.schema ≠
          .error (.stuck injections) := by
      intro injections
      cases (directBuilder (registryOf steps log) (steps.flatMap Step.queued) query mutation
        subscription).finish <;> simp [Except.mapError]
    refine ⟨⟨?_, ?_⟩, fun injections stuck => absurd stuck (never injections)⟩
    · rintro ⟨injections, stuck⟩
      exact absurd stuck (never injections)
    · rintro ⟨a, mem, absent⟩
      exact absurd ((targets a).mp (List.all_eq_true.mp targeted a mem)) absent
  · rename_i notAll
    refine ⟨⟨fun _ => ?_, fun _ => ⟨_, rfl⟩⟩, ?_⟩
    · simp only [List.all_eq_true, not_forall] at notAll
      obtain ⟨a, mem, missed⟩ := notAll
      exact ⟨a, mem, fun registered => missed ((targets a).mpr registered)⟩
    · intro injections stuck
      cases stuck
      obtain ⟨nodup, sorted, members⟩ := stuckTargets_spec
        (stuckOf (registryOf steps log) (steps.flatMap Step.queued))
      refine ⟨nodup, sorted, fun t => ?_⟩
      rw [members]
      simp only [stuckOf, List.mem_map, List.mem_filter]
      constructor
      · rintro ⟨s, ⟨a, ⟨mem, missed⟩, rfl⟩, rfl⟩
        exact ⟨⟨a, mem, rfl⟩, fun registered => by simp [(targets a).mpr registered] at missed⟩
      · rintro ⟨⟨a, mem, rfl⟩, absent⟩
        exact ⟨_, ⟨a, ⟨mem, by simpa using mt (targets a).mp absent⟩, rfl⟩, rfl⟩

/-- What finishing answers after a session of steps on a fresh registry. -/
def finishAfter (steps : List (Step σ)) : Except RegistryError (ExecutableSchema σ) :=
  (exec (finish query mutation subscription) (afterActions {} (steps.map fun s => .call s.call))).1

theorem finishAfter_eq (steps : List (Step σ)) (distinct : (steps.filterMap Step.key).Nodup) :
    ∃ log, finishAfter query mutation subscription steps =
      (exec (finish query mutation subscription) (registryOf steps log)).1 := by
  obtain ⟨log, ran⟩ := afterActions_steps steps distinct
  exact ⟨log, by rw [finishAfter, ran]⟩

theorem finishAfter_perm {steps steps' : List (Step σ)} (reordered : steps'.Perm steps)
    (distinct : (steps.filterMap Step.key).Nodup) :
    Finished.of (finishAfter query mutation subscription steps') =
      Finished.of (finishAfter query mutation subscription steps) := by
  obtain ⟨log, ran⟩ := finishAfter_eq query mutation subscription steps distinct
  obtain ⟨log', ran'⟩ := finishAfter_eq query mutation subscription steps'
    ((reordered.filterMap _).nodup_iff.mpr distinct)
  rw [ran, ran']
  exact finished_registryOf_perm _ _ _ reordered distinct log log'

example :
    let query : ObjectDef Unit := { name := "Query", fields := [{ name := "a", type := .named "String" }] }
    let steps : List (Step Unit) :=
      [.inject "Ghost" "m" [{ name := "b", type := .named "String" }], .register (.object query),
        .inject "Query" "m" [{ name := "c", type := .named "String" }]]
    Finished.of (finishAfter "Query" "" "" steps) = .stuck ["Ghost"] ∧
      Finished.of (finishAfter "Query" "" "" steps.reverse) = .stuck ["Ghost"] := by
  decide +kernel

end Finishing

/-! ### Module code that makes steps -/

/-- Module code that, run on the registry some steps left, makes further steps: as long as no two
of all the steps register one kind and name, it succeeds and leaves the registry all of them
leave. -/
def Makes (p : Registration σ Unit) (steps : List (Step σ)) : Prop :=
  ∀ (done : List (Step σ)) (log : List Telemetry.LogRecord),
    ((done ++ steps).filterMap Step.key).Nodup →
      ∃ log', exec p (registryOf done log) = (.ok (), registryOf (done ++ steps) log')

namespace Makes

theorem step (s : Step σ) : Makes s.call.run [s] :=
  fun done log distinct => exec_step done s log (key_fresh (List.mem_singleton_self s) distinct)

theorem done : Makes (pure () : Registration σ Unit) [] :=
  fun done log _ => ⟨log, by rw [exec_pure, List.append_nil]⟩

theorem seq {p q : Registration σ Unit} {ps qs : List (Step σ)} (first : Makes p ps)
    (second : Makes q qs) : Makes (p >>= fun _ => q) (ps ++ qs) := by
  intro done log distinct
  have before : ((done ++ ps).filterMap Step.key).Nodup :=
    distinct.sublist (by rw [← List.append_assoc]; exact (List.sublist_append_left _ _).filterMap _)
  obtain ⟨log₁, ran₁⟩ := first done log before
  obtain ⟨log₂, ran₂⟩ := second (done ++ ps) log₁ (by rwa [List.append_assoc])
  refine ⟨log₂, ?_⟩
  rw [exec_bind, ran₁, andThen_ok, ran₂, List.append_assoc]

theorem registerObject (o : ObjectDef σ) : Makes (Registry.registerObject o) [.register (.object o)] :=
  step (.register (.object o))

theorem registerInterface (d : InterfaceDef σ) :
    Makes (Registry.registerInterface d) [.register (.interface d)] :=
  step (.register (.interface d))

theorem registerUnion (d : UnionDef) : Makes (Registry.registerUnion d : Registration σ Unit)
    [.register (.union d)] :=
  step (.register (.union d))

theorem registerEnum (d : EnumDef) : Makes (Registry.registerEnum d : Registration σ Unit)
    [.register (.enum d)] :=
  step (.register (.enum d))

theorem registerInputObject (d : InputObjectDef) :
    Makes (Registry.registerInputObject d : Registration σ Unit) [.register (.inputObject d)] :=
  step (.register (.inputObject d))

theorem expandField (target : String) (f : FieldDef σ) (p : Provenance) :
    Makes (expandObject target (some fun o => some (o.field f)) p) [.expand ⟨target, [f], [], p⟩] :=
  step (.expand ⟨target, [f], [], p⟩)

theorem implement_field (o : ObjectDef σ) (i : String) (f : FieldDef σ) :
    (o.implement i).field f = (o.field f).implement i := by
  unfold ObjectDef.implement ObjectDef.field
  split <;> rfl

theorem expandImplementField (target i : String) (f : FieldDef σ) (p : Provenance) :
    Makes (expandObject target (some fun o => some ((o.implement i).field f)) p)
      [.expand ⟨target, [f], [i], p⟩] := by
  have same : (fun o : ObjectDef σ => some ((o.implement i).field f)) =
      fun o => some ((⟨target, [f], [i], p⟩ : Appending σ).apply o) := by
    funext o
    rw [implement_field]
    rfl
  rw [same]
  exact step (.expand ⟨target, [f], [i], p⟩)

theorem injectFields (target module : String) (fields : List (Option (FieldDef σ)))
    (given : fields.all Option.isSome = true) :
    Makes (Registry.injectFields target module fields) [.inject target module (leadingFields fields)] := by
  have listed : (leadingFields fields).map some = fields := by
    induction fields with
    | nil => rfl
    | cons field rest ih =>
      cases field with
      | none => simp at given
      | some f =>
        simp only [List.all_cons, Option.isSome_some, Bool.true_and] at given
        simp [leadingFields, ih given]
  have made := step (.inject target module (leadingFields fields))
  rwa [Step.call, listed] at made

/-- A loop whose body, for each element, makes steps and goes on makes them all, in order. -/
theorem forIn {α : Type} (xs : List α) (body : α → PUnit → Registration σ (ForInStep PUnit))
    (stepsOf : α → List (Step σ))
    (each : ∀ x ∈ xs, ∃ f, body x PUnit.unit = (f >>= fun _ => pure (.yield PUnit.unit)) ∧
      Makes f (stepsOf x)) :
    Makes (ForIn.forIn xs PUnit.unit body) (xs.flatMap stepsOf) := by
  induction xs with
  | nil => exact done
  | cons x rest ih =>
    obtain ⟨f, shape, made⟩ := each x List.mem_cons_self
    have unrolled : (ForIn.forIn (x :: rest) PUnit.unit body : Registration σ PUnit) =
        f >>= fun _ => ForIn.forIn rest PUnit.unit body := by
      rw [List.forIn_cons, shape]
      simp
    rw [unrolled, List.flatMap_cons]
    exact made.seq (ih fun y mem => each y (List.mem_cons_of_mem _ mem))

/-- Registering modules, each of whose code makes its steps, makes all their steps in order. -/
theorem register {ms : List (Module σ)} {stepss : List (List (Step σ))}
    (each : List.Forall₂ (fun m steps => Makes m.register steps) ms stepss) :
    Makes (Registry.register ms) stepss.flatten := by
  induction each with
  | nil => exact done
  | @cons m steps rest restSteps made _ ih =>
    intro done log distinct
    have before : ((done ++ steps).filterMap Step.key).Nodup :=
      distinct.sublist (by
        rw [List.flatten_cons, ← List.append_assoc]
        exact (List.sublist_append_left _ _).filterMap _)
    obtain ⟨log₁, ran₁⟩ := made done log before
    rw [exec_register_cons_ok _ _ ran₁]
    obtain ⟨log₂, ran₂⟩ := ih (done ++ steps) (log₁ ++ [.debug "module registered"
      [("module", .text m.name)]]) (by rwa [List.flatten_cons, ← List.append_assoc] at distinct)
    refine ⟨log₂, ?_⟩
    rw [List.flatten_cons, ← List.append_assoc]
    exact ran₂

end Makes

end Registry

end GraphWeave
