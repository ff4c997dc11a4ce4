import GraphWeave.Proofs.Registry.Calls
import GraphWeave.Proofs.Registry.Lifecycle
import GraphWeave.Proofs.Definition.WellFormed
import Mathlib

/-!
Injected fields against direct declaration: a registry whose waiting changes only append to
registered objects finishes as the schema that declares those fields directly.
-/

namespace GraphWeave.Registry

variable {σ : Type}

/-! ### Changes that append -/

/-- A change that appends fields to its target object and declares interfaces on it. -/
structure Appending (σ : Type) where
  target : String
  fields : List (FieldDef σ)
  interfaces : List String
  provenance : Provenance

namespace Appending

/-- The object with the fields appended and the interfaces declared; an interface the object
already has is not declared again. -/
def apply (a : Appending σ) (o : ObjectDef σ) : ObjectDef σ :=
  a.interfaces.foldl ObjectDef.implement (a.fields.foldl ObjectDef.field o)

/-- The change as the registry queues it. -/
def toInjection (a : Appending σ) : Injection σ :=
  ⟨a.target, fun o => some (a.apply o), a.provenance⟩

theorem fieldInjection_eq (target module : String) (f : FieldDef σ) :
    fieldInjection target module f =
      (⟨target, [f], [], ⟨module, f.name⟩⟩ : Appending σ).toInjection :=
  rfl

end Appending

/-- The fields injected into the object of a name, in the order they were asked for. -/
def injectedFields (as : List (Appending σ)) (name : String) : List (FieldDef σ) :=
  (as.filter (·.target == name)).flatMap (·.fields)

/-- The interfaces injected into an object that it was not registered with, each once. -/
def injectedInterfaces (as : List (Appending σ)) (o : ObjectDef σ) : List String :=
  (((as.filter (·.target == o.name)).flatMap (·.interfaces)).filter
    fun i => !o.interfaces.contains i).dedup

/-- An object declared directly with what was injected into it: its registered fields, then the
injected ones sorted by name; its registered interfaces, then the injected ones sorted by name. -/
def declareDirect (as : List (Appending σ)) (o : ObjectDef σ) : ObjectDef σ :=
  { o with
    fields := o.fields ++ (injectedFields as o.name).mergeSort fun f g => decide (f.name ≤ g.name)
    interfaces := o.interfaces ++ (injectedInterfaces as o).mergeSort fun i j => decide (i ≤ j) }

/-- The builder of the registry's definitions with every object declared directly. -/
def directBuilder (r : Registry σ) (as : List (Appending σ))
    (query mutation subscription : String) : SchemaBuilder σ :=
  { query, mutation, subscription,
    definitions := { r with objects := r.objects.map (declareDirect as) }.definitions }

/-! ### What an open registry keeps of its objects -/

/-- The counts an object is registered with: its name, and how many fields and interfaces it
has. -/
def registeredCounts (o : ObjectDef σ) : String × Nat × Nat :=
  (o.name, o.fields.length, o.interfaces.length)

/-- One object of each name, and for each the counts it was registered with; these are its own
counts, since changes wait until the registry is finished. -/
structure Recorded (r : Registry σ) : Prop where
  distinct : (r.objects.map (·.name)).Nodup
  counts : r.bases = r.objects.map registeredCounts

theorem Recorded.empty : Recorded ({} : Registry σ) := ⟨List.nodup_nil, rfl⟩

theorem setNamed_map {α β : Type} (name : α → String) (name' : β → String) (f : α → β)
    (same : ∀ x, name' (f x) = name x) (xs : List α) (x : α) :
    setNamed name' (xs.map f) (f x) = (setNamed name xs x).map f := by
  unfold setNamed
  simp only [List.any_map, Function.comp_def, same]
  split
  · simp only [List.map_map, Function.comp_def, same, apply_ite f]
  · simp

theorem names_setNamed (xs : List (ObjectDef σ)) (o : ObjectDef σ) :
    (setNamed (·.name) xs o).map (·.name) =
      if xs.any (·.name == o.name) then xs.map (·.name) else xs.map (·.name) ++ [o.name] := by
  unfold setNamed
  split
  · simp only [List.map_map, Function.comp_def]
    congr 1
    funext y
    split <;> simp_all
  · simp

theorem Recorded.withObject {r : Registry σ} (recorded : Recorded r) (o : ObjectDef σ) :
    Recorded (r.withObject o) where
  distinct := by
    show ((setNamed (·.name) r.objects o).map (·.name)).Nodup
    rw [names_setNamed]
    split
    · exact recorded.distinct
    · rename_i absent
      refine List.nodup_append.mpr ⟨recorded.distinct, List.nodup_singleton _, ?_⟩
      simp only [List.mem_singleton, List.mem_map]
      rintro _ ⟨y, mem, rfl⟩ _ rfl same
      exact absent (List.any_eq_true.mpr ⟨y, mem, by simp [same]⟩)
  counts := by
    show setNamed (·.1) r.bases (o.name, o.fields.length, o.interfaces.length) =
      (setNamed (·.name) r.objects o).map registeredCounts
    rw [recorded.counts]
    exact setNamed_map (·.name) (·.1) registeredCounts (fun _ => rfl) r.objects o

theorem Recorded.apply {r : Registry σ} (recorded : Recorded r) (e : Edit σ) :
    Recorded (e.apply r) := by
  cases e with
  | registerObject o => exact recorded.withObject o
  | overrideObject o =>
    exact (⟨recorded.distinct, recorded.counts⟩ : Recorded (r.withNote _)).withObject o
  | registerInputObject => exact ⟨recorded.distinct, recorded.counts⟩
  | registerEnum => exact ⟨recorded.distinct, recorded.counts⟩
  | registerUnion => exact ⟨recorded.distinct, recorded.counts⟩
  | registerInterface => exact ⟨recorded.distinct, recorded.counts⟩
  | registerScalar => exact ⟨recorded.distinct, recorded.counts⟩
  | expandObject => exact ⟨recorded.distinct, recorded.counts⟩

/-- A call that leaves the registry open keeps the record. -/
theorem Call.exec_recorded (c : Call σ) {r : Registry σ} (recorded : Recorded r)
    (stillOpen : (exec c.run r).2.state = .accumulating) : Recorded (exec c.run r).2 := by
  by_cases isOpen : r.state = .accumulating
  swap
  · rw [c.exec_closed isOpen]
    exact recorded
  cases c with
  | edit e =>
    rw [Call.run, e.exec_run]
    cases refused : e.refusal r with
    | some err =>
      rw [e.outcome_refused isOpen refused]
      exact recorded
    | none =>
      rw [e.outcome_applied isOpen refused]
      exact recorded.apply e
  | injectFields target module fields =>
    rw [Call.run, exec_injectFields_open _ _ _ isOpen]
    exact ⟨recorded.distinct, recorded.counts⟩
  | finish query mutation subscription =>
    have closes : (exec (Call.finish query mutation subscription).run r).2 =
        (exec (Registry.finish query mutation subscription) r).2 := by
      rw [Call.run, exec_seqRight]
      rcases exec (Registry.finish query mutation subscription) r with ⟨_ | _, _⟩ <;> rfl
    rw [closes] at stillOpen
    rcases exec_finish_open query mutation subscription isOpen with
      ⟨_, _, finalized⟩ | ⟨_, _, failed⟩
    · rw [finalized] at stillOpen
      cases stillOpen
    · rw [failed] at stillOpen
      cases stillOpen

theorem Script.exec_recorded (s : Script σ) {r : Registry σ} (recorded : Recorded r)
    (stillOpen : (exec s.run r).2.state = .accumulating) : Recorded (exec s.run r).2 := by
  induction s generalizing r with
  | done outcome => exact recorded
  | call c next ih =>
    rw [exec_call] at stillOpen ⊢
    have midOpen : (exec c.run r).2.state = .accumulating := by
      by_contra closed
      exact (Script.exec_reaches _ _).closed closed stillOpen
    exact ih _ (c.exec_recorded recorded midOpen) stillOpen

theorem exec_register_recorded (modules : List (String × Script σ)) {r : Registry σ}
    (recorded : Recorded r)
    (stillOpen : (exec (Action.register modules).run r).2.state = .accumulating) :
    Recorded (exec (Action.register modules).run r).2 := by
  induction modules generalizing r with
  | nil => exact recorded
  | cons m rest ih =>
    simp only [Action.run, List.map_cons] at ih stillOpen ⊢
    rcases ran : exec m.2.run r with ⟨e | _, r'⟩
    · rw [exec_register_cons_error ⟨m.1, m.2.run⟩ _ ran] at stillOpen ⊢
      have kept := m.2.exec_recorded recorded (by rw [ran]; exact stillOpen)
      rwa [ran] at kept
    · rw [exec_register_cons_ok ⟨m.1, m.2.run⟩ _ ran] at stillOpen ⊢
      have midOpen : r'.state = .accumulating := by
        by_contra closed
        exact (exec_register_reaches rest (r'.withNote _)).closed closed stillOpen
      have kept := m.2.exec_recorded recorded (by rw [ran]; exact midOpen)
      rw [ran] at kept
      exact ih ⟨kept.distinct, kept.counts⟩ stillOpen

theorem Action.exec_recorded (a : Action σ) {r : Registry σ} (recorded : Recorded r)
    (stillOpen : (exec a.run r).2.state = .accumulating) : Recorded (exec a.run r).2 := by
  cases a with
  | call c => exact c.exec_recorded recorded stillOpen
  | register modules => exact exec_register_recorded modules recorded stillOpen

theorem afterActions_recorded (actions : List (Action σ)) {r : Registry σ} (recorded : Recorded r)
    (stillOpen : (afterActions r actions).state = .accumulating) :
    Recorded (afterActions r actions) := by
  induction actions generalizing r with
  | nil => exact recorded
  | cons a rest ih =>
    rw [afterActions_cons] at stillOpen ⊢
    have midOpen : (exec a.run r).2.state = .accumulating := by
      by_contra closed
      exact (afterActions_reaches rest _).closed closed stillOpen
    exact ih (a.exec_recorded recorded midOpen) stillOpen

/-! ### Making the changes -/

theorem foldl_field (fs : List (FieldDef σ)) (o : ObjectDef σ) :
    fs.foldl ObjectDef.field o = { o with fields := o.fields ++ fs } := by
  induction fs generalizing o with
  | nil => simp
  | cons f rest ih =>
    rw [List.foldl_cons, ih]
    simp [ObjectDef.field]

/-- `added` holds, each once, the interfaces of `is` that `base` lacks. -/
structure Gains (base is added : List String) : Prop where
  nodup : added.Nodup
  mem_iff : ∀ i, i ∈ added ↔ i ∈ is ∧ i ∉ base

theorem Gains.nil (base : List String) : Gains base [] [] := ⟨List.nodup_nil, by simp⟩

theorem Gains.of_mem {base : List String} {i : String} (present : i ∈ base) : Gains base [i] [] :=
  ⟨List.nodup_nil, by simp [present]⟩

theorem Gains.of_not_mem {base : List String} {i : String} (absent : i ∉ base) :
    Gains base [i] [i] :=
  ⟨List.nodup_singleton i, fun j => by by_cases same : j = i <;> simp [same, absent]⟩

theorem Gains.append {base is₁ is₂ added₁ added₂ : List String} (first : Gains base is₁ added₁)
    (second : Gains (base ++ added₁) is₂ added₂) : Gains base (is₁ ++ is₂) (added₁ ++ added₂) where
  nodup := by
    refine List.nodup_append.mpr ⟨first.nodup, second.nodup, ?_⟩
    rintro i gained₁ _ gained₂ rfl
    exact ((second.mem_iff i).mp gained₂).2 (List.mem_append_right _ gained₁)
  mem_iff i := by
    rw [List.mem_append, List.mem_append, first.mem_iff, second.mem_iff, List.mem_append,
      first.mem_iff]
    tauto

/-- Declaring interfaces one by one adds, each once, those the object lacks. -/
theorem foldl_implement (is : List String) (o : ObjectDef σ) :
    ∃ added, is.foldl ObjectDef.implement o = { o with interfaces := o.interfaces ++ added } ∧
      Gains o.interfaces is added := by
  induction is generalizing o with
  | nil => exact ⟨[], by simp, Gains.nil _⟩
  | cons i rest ih =>
    rw [List.foldl_cons]
    by_cases present : i ∈ o.interfaces
    · have same : o.implement i = o := by simp [ObjectDef.implement, present]
      obtain ⟨added, eq, gains⟩ := ih o
      refine ⟨added, by rw [same, eq], ?_⟩
      exact (Gains.of_mem present).append (by simpa using gains)
    · have grown : o.implement i = { o with interfaces := o.interfaces ++ [i] } := by
        simp [ObjectDef.implement, present]
      obtain ⟨added, eq, gains⟩ := ih (o.implement i)
      refine ⟨i :: added, by rw [eq, grown]; simp, ?_⟩
      rw [grown] at gains
      exact (Gains.of_not_mem present).append gains

theorem Appending.apply_eq (a : Appending σ) (o : ObjectDef σ) :
    ∃ added, a.apply o =
      { o with fields := o.fields ++ a.fields, interfaces := o.interfaces ++ added } ∧
      Gains o.interfaces a.interfaces added := by
  obtain ⟨added, eq, gains⟩ := foldl_implement a.interfaces (a.fields.foldl ObjectDef.field o)
  rw [foldl_field] at eq gains
  exact ⟨added, by rw [Appending.apply, foldl_field, eq], gains⟩

@[simp] theorem Appending.apply_name (a : Appending σ) (o : ObjectDef σ) :
    (a.apply o).name = o.name := by
  obtain ⟨added, eq, -⟩ := a.apply_eq o
  rw [eq]

/-- An object with the changes of a list that target it made to it, in order. -/
def applyFor (as : List (Appending σ)) (o : ObjectDef σ) : ObjectDef σ :=
  as.foldl (fun o a => if a.target = o.name then a.apply o else o) o

theorem applyFor_nil : applyFor ([] : List (Appending σ)) = id := rfl

theorem applyFor_append_single (done : List (Appending σ)) (a : Appending σ) (o : ObjectDef σ) :
    applyFor (done ++ [a]) o =
      if a.target = (applyFor done o).name then a.apply (applyFor done o) else applyFor done o := by
  unfold applyFor
  rw [List.foldl_append]
  rfl

/-- The changes made to an object append the fields injected into it, and add the injected
interfaces it lacks, each once. -/
theorem applyFor_eq (as : List (Appending σ)) (o : ObjectDef σ) :
    ∃ added, applyFor as o =
        { o with
          fields := o.fields ++ injectedFields as o.name
          interfaces := o.interfaces ++ added } ∧
      Gains o.interfaces ((as.filter (·.target == o.name)).flatMap (·.interfaces)) added := by
  induction as generalizing o with
  | nil => exact ⟨[], by simp [applyFor, injectedFields], by simpa using Gains.nil _⟩
  | cons a rest ih =>
    have first :
        applyFor (a :: rest) o = applyFor rest (if a.target = o.name then a.apply o else o) :=
      rfl
    by_cases targets : a.target = o.name
    · obtain ⟨addedA, eqA, gainsA⟩ := a.apply_eq o
      obtain ⟨added, eq, gains⟩ := ih (a.apply o)
      rw [eqA] at eq gains
      refine ⟨addedA ++ added, ?_, ?_⟩
      · rw [first, if_pos targets, eqA, eq]
        simp [injectedFields, targets]
      · simpa [List.filter_cons, targets] using gainsA.append gains
    · obtain ⟨added, eq, gains⟩ := ih o
      refine ⟨added, ?_, ?_⟩
      · rw [first, if_neg targets, eq]
        simp [injectedFields, targets]
      · simpa [List.filter_cons, targets] using gains

@[simp] theorem applyFor_name (as : List (Appending σ)) (o : ObjectDef σ) :
    (applyFor as o).name = o.name := by
  obtain ⟨added, eq, -⟩ := applyFor_eq as o
  rw [eq]

theorem mergeSort_eq_of_perm {l₁ l₂ : List String} (same : l₁.Perm l₂) :
    l₁.mergeSort (fun i j => decide (i ≤ j)) = l₂.mergeSort (fun i j => decide (i ≤ j)) :=
  ((List.mergeSort_perm _ _).trans (same.trans (List.mergeSort_perm _ _).symm)).eq_of_pairwise'
    (List.pairwise_mergeSort' _ _) (List.pairwise_mergeSort' _ _)

theorem Gains.perm {base is added : List String} (gains : Gains base is added) :
    added.Perm (is.filter fun i => !base.contains i).dedup := by
  rw [List.perm_ext_iff_of_nodup gains.nodup (List.nodup_dedup _)]
  intro i
  simp [gains.mem_iff, List.mem_dedup]

theorem sortFrom_applyFor (as : List (Appending σ)) (o : ObjectDef σ) :
    (applyFor as o).sortFrom o.fields.length o.interfaces.length = declareDirect as o := by
  obtain ⟨added, eq, gains⟩ := applyFor_eq as o
  rw [eq]
  simp only [ObjectDef.sortFrom, declareDirect, List.take_left', List.drop_left']
  rw [mergeSort_eq_of_perm gains.perm]
  rfl

theorem sortAdded_applyFor {r : Registry σ} (recorded : Recorded r) (as : List (Appending σ))
    {o : ObjectDef σ} (mem : o ∈ r.objects) (r' : Registry σ) (bases : r'.bases = r.bases) :
    r'.sortAdded (applyFor as o) = declareDirect as o := by
  have keys : (r.bases.map Prod.fst).Nodup := by
    rw [recorded.counts, List.map_map]
    exact recorded.distinct
  have found : r'.bases.find? (·.1 == o.name) = some (registeredCounts o) := by
    rw [bases]
    refine (find?_key_eq_some_iff Prod.fst keys o.name _).mpr ⟨?_, rfl⟩
    rw [recorded.counts]
    exact List.mem_map_of_mem mem
  simp only [sortAdded, applyFor_name, found]
  exact sortFrom_applyFor as o

/-! ### One pass over the queue -/

section Pass

variable {objs : List (ObjectDef σ)}

theorem find?_applyFor (distinct : (objs.map (·.name)).Nodup) (done : List (Appending σ))
    {o : ObjectDef σ} (mem : o ∈ objs) :
    (objs.map (applyFor done)).find? (·.name == o.name) = some (applyFor done o) := by
  have found : objs.find? (·.name == o.name) = some o :=
    (find?_key_eq_some_iff (·.name) distinct o.name o).mpr ⟨mem, rfl⟩
  rw [List.find?_map]
  simp only [Function.comp_def, applyFor_name, found, Option.map_some]

/-- Storing a changed object in place makes the change to the one object of its name. -/
theorem setNamed_applyFor (distinct : (objs.map (·.name)).Nodup) (done : List (Appending σ))
    {o : ObjectDef σ} (mem : o ∈ objs) (a : Appending σ) (targets : a.target = o.name) :
    setNamed (·.name) (objs.map (applyFor done)) (a.apply (applyFor done o)) =
      objs.map (applyFor (done ++ [a])) := by
  have present : (objs.map (applyFor done)).any (·.name == (a.apply (applyFor done o)).name) :=
    List.any_eq_true.mpr ⟨applyFor done o, List.mem_map_of_mem mem, by simp⟩
  unfold setNamed
  rw [if_pos present, List.map_map]
  apply List.map_congr_left
  intro y member
  simp only [Function.comp_apply, applyFor_append_single, applyFor_name, Appending.apply_name]
  by_cases named : y.name = o.name
  · obtain rfl := List.inj_on_of_nodup_map distinct member mem named
    simp [targets]
  · have apart : o.name ≠ y.name := Ne.symm named
    simp [named, targets, apart]

end Pass

/-- Whether a change targets one of the objects. -/
def targetsObject (objs : List (ObjectDef σ)) (a : Appending σ) : Bool := objs.any (·.name == a.target)

theorem targetsObject_iff {objs : List (ObjectDef σ)} {a : Appending σ} :
    targetsObject objs a = true ↔ ∃ o ∈ objs, o.name = a.target := by
  simp [targetsObject]

/-- A pass over changes that append makes those whose target is a registered object, in order,
and leaves the others waiting, in order; nothing is stuck. -/
theorem applyPass_appending (r : Registry σ) (as : List (Appending σ))
    (distinct : (r.objects.map (·.name)).Nodup) :
    ∃ log, r.applyPass (as.map Appending.toInjection) =
      ({ r with objects := r.objects.map (applyFor as), log }, [],
        (as.filter fun a => !targetsObject r.objects a).map Appending.toInjection,
        as.any (targetsObject r.objects)) := by
  unfold applyPass
  suffices pass : ∀ (rest done : List (Appending σ)) (current : Registry σ)
      (log : List Telemetry.LogRecord) (progress : Bool) (next : List (Injection σ)),
      current = { r with objects := r.objects.map (applyFor done), log } →
      ∃ log', (rest.map Appending.toInjection).foldl _ (current, [], next, progress) =
        ({ r with objects := r.objects.map (applyFor (done ++ rest)), log := log' }, [],
          next ++ (rest.filter fun a => !targetsObject r.objects a).map Appending.toInjection,
          progress || rest.any (targetsObject r.objects))
    from pass as [] r r.log false [] (by rw [applyFor_nil, List.map_id])
  intro rest
  induction rest with
  | nil =>
    intro done current log progress next current_eq
    exact ⟨log, by simp [current_eq]⟩
  | cons a rest ih =>
    intro done current log progress next current_eq
    subst current_eq
    simp only [List.map_cons, List.foldl_cons]
    dsimp only [Appending.toInjection]
    by_cases registered : targetsObject r.objects a = true
    · obtain ⟨o, mem, named⟩ := targetsObject_iff.mp registered
      have found :
          (r.objects.map (applyFor done)).find? (·.name == a.target) = some (applyFor done o) := by
        rw [← named]
        exact find?_applyFor distinct done mem
      rw [found]
      dsimp only
      simp only [Appending.apply_name, applyFor_name, named, bne_self_eq_false, Bool.false_eq_true,
        if_false, setNamed_applyFor distinct done mem a named.symm]
      obtain ⟨log', ran⟩ := ih (done ++ [a]) _ _ true next rfl
      refine ⟨log', ?_⟩
      rw [List.append_assoc, List.singleton_append, Bool.true_or] at ran
      simp only [List.filter_cons, registered, Bool.not_true, Bool.false_eq_true, if_false,
        List.any_cons, Bool.true_or, Bool.or_true]
      dsimp only at ran
      exact ran
    · have missing : (r.objects.map (applyFor done)).find? (·.name == a.target) = none := by
        rw [List.find?_eq_none]
        intro o' mem' same
        obtain ⟨o, mem, rfl⟩ := List.mem_map.mp mem'
        exact registered (targetsObject_iff.mpr ⟨o, mem, by simpa using same⟩)
      rw [missing]
      dsimp only
      have untouched : r.objects.map (applyFor done) = r.objects.map (applyFor (done ++ [a])) := by
        apply List.map_congr_left
        intro o mem
        have apart : a.target ≠ o.name := fun same =>
          registered (targetsObject_iff.mpr ⟨o, mem, same.symm⟩)
        rw [applyFor_append_single, applyFor_name, if_neg apart]
      obtain ⟨log', ran⟩ := ih (done ++ [a]) { r with objects := r.objects.map (applyFor done), log }
        log progress (next ++ [a.toInjection]) (by rw [untouched])
      refine ⟨log', ?_⟩
      rw [List.append_assoc, List.singleton_append, List.append_assoc, List.singleton_append] at ran
      simp only [List.filter_cons, List.any_cons, Bool.eq_false_iff.mpr registered, Bool.false_or]
      dsimp only at ran
      exact ran

/-- With every target registered, the first pass makes every change and the loop ends. -/
theorem applyAll_appending (fuel : Nat) (r : Registry σ) (as : List (Appending σ))
    (distinct : (r.objects.map (·.name)).Nodup)
    (targeted : ∀ a ∈ as, ∃ o ∈ r.objects, o.name = a.target) :
    ∃ log, applyAll (fuel + 1) r (as.map Appending.toInjection) [] =
      ({ r with objects := r.objects.map (applyFor as), log }, []) := by
  obtain ⟨log, pass⟩ := applyPass_appending r as distinct
  have none_waits : (as.filter fun a => !targetsObject r.objects a) = [] := by
    rw [List.filter_eq_nil_iff]
    intro a mem
    simpa using targetsObject_iff.mpr (targeted a mem)
  rw [none_waits] at pass
  cases as with
  | nil => exact ⟨r.log, by rw [applyFor_nil, List.map_id]; rfl⟩
  | cons a rest =>
    refine ⟨log, ?_⟩
    have progressed : (a :: rest).any (targetsObject r.objects) = true :=
      List.any_eq_true.mpr ⟨a, List.mem_cons_self, targetsObject_iff.mpr (targeted a List.mem_cons_self)⟩
    rw [List.map_cons] at pass
    simp only [List.map_cons, applyAll, pass, progressed, if_true, List.map_nil, List.append_nil]

/-- Finishing the changes of a recorded registry, when each appends to a registered object,
leaves every object declared directly. -/
theorem exec_resolveInjections_appending (r : Registry σ) (as : List (Appending σ))
    (recorded : Recorded r) (queued : r.pending = as.map Appending.toInjection)
    (targeted : ∀ a ∈ as, ∃ o ∈ r.objects, o.name = a.target) :
    ∃ log, exec resolveInjections r =
      (.ok (), { r with pending := [], objects := r.objects.map (declareDirect as), log }) := by
  obtain ⟨log, applied⟩ := applyAll_appending (as.map Appending.toInjection).length
    { r with pending := [] } as recorded.distinct targeted
  refine ⟨log, ?_⟩
  simp only [resolveInjections, exec_bind, exec_get, andThen_ok]
  rw [queued, applied]
  simp only [exec_set, andThen_ok, List.forIn_nil, List.isEmpty_nil, Bool.not_true,
    Bool.false_eq_true, if_false, exec_bind, exec_pure, exec_modify, List.map_map]
  congr 2
  apply List.map_congr_left
  intro o mem
  exact sortAdded_applyFor recorded as mem _ rfl

/-! ### Finishing against declaring directly -/

/-- Finishing a recorded open registry whose waiting changes each append to a registered object
answers what the direct builder answers, and leaves every object declared directly. -/
theorem exec_finish_appending (r : Registry σ) (as : List (Appending σ))
    (isOpen : r.state = .accumulating) (recorded : Recorded r)
    (queued : r.pending = as.map Appending.toInjection)
    (targeted : ∀ a ∈ as, ∃ o ∈ r.objects, o.name = a.target)
    (query mutation subscription : String) :
    (exec (finish query mutation subscription) r).1 =
        (directBuilder r as query mutation subscription).finish.mapError .schema ∧
      (exec (finish query mutation subscription) r).2.objects =
        r.objects.map (declareDirect as) := by
  obtain ⟨log, resolved⟩ := exec_resolveInjections_appending { r with state := .finalizing } as
    ⟨recorded.distinct, recorded.counts⟩ queued targeted
  simp only [finish, exec_bind, exec_checkAccumulating, isOpen, if_true, andThen_ok, exec_modify,
    exec_tryCatch, resolved, recover_ok, exec_get]
  split
  next e failed =>
    have direct : (directBuilder r as query mutation subscription).finish = .error e := failed
    simp [direct, exec_bind, withNote, Except.mapError]
  next es built =>
    have direct : (directBuilder r as query mutation subscription).finish = .ok es := built
    simp [direct, exec_bind, exec_map, withNote, Except.mapError, Except.map]

/-- Injection refines direct declaration. After any session that leaves a registry open with
changes waiting that each append fields and interfaces to a registered object, finishing the
registry answers what building the same definitions with every object declared directly answers
(its registered fields, then the injected ones sorted by name; its registered interfaces, then
the injected ones it lacked, sorted by name), a failure of the build wrapped as a schema error.
The registry ends holding the directly declared objects: for each registered object, one of its
name whose fields are its registered ones followed by a reordering of those injected into it, so
that each injected field appears once. -/
theorem finish_refines_direct (actions : List (Action σ)) (as : List (Appending σ))
    (query mutation subscription : String)
    (isOpen : (afterActions {} actions).state = .accumulating)
    (queued : (afterActions {} actions).pending = as.map Appending.toInjection)
    (targeted : ∀ a ∈ as, ∃ o ∈ (afterActions {} actions).objects, o.name = a.target) :
    (exec (finish query mutation subscription) (afterActions {} actions)).1 =
        (directBuilder (afterActions {} actions) as query mutation subscription).finish.mapError
          .schema ∧
      (exec (finish query mutation subscription) (afterActions {} actions)).2.objects =
        (afterActions {} actions).objects.map (declareDirect as) ∧
      ∀ o ∈ (afterActions {} actions).objects,
        ∃ o' ∈ (exec (finish query mutation subscription) (afterActions {} actions)).2.objects,
          o'.name = o.name ∧ ∃ injected, o'.fields = o.fields ++ injected ∧
            injected.Perm (injectedFields as o.name) := by
  have recorded := afterActions_recorded actions Recorded.empty isOpen
  obtain ⟨answers, holds⟩ :=
    exec_finish_appending _ as isOpen recorded queued targeted query mutation subscription
  refine ⟨answers, holds,
    fun o mem => ⟨declareDirect as o, ?_, rfl, _, rfl, List.mergeSort_perm _ _⟩⟩
  rw [holds]
  exact List.mem_map_of_mem mem

/-- A field injected into an object before the object is registered: the session meets the
conditions, and finishing it answers as declaring the field directly does. -/
theorem avatar_injection_refines_direct :
    let avatar : FieldDef Unit := { name := "avatar", type := .named "Image" }
    let user : ObjectDef Unit :=
      { name := "User", fields := [{ name := "id", type := .named "ID" }] }
    let actions : List (Action Unit) :=
      [.call (.injectFields "User" "avatars" [some avatar]), .call (.edit (.registerObject user))]
    let as : List (Appending Unit) := [⟨"User", [avatar], [], ⟨"avatars", "avatar"⟩⟩]
    (afterActions {} actions).state = .accumulating ∧
      (afterActions {} actions).pending = as.map Appending.toInjection ∧
      (∀ a ∈ as, ∃ o ∈ (afterActions {} actions).objects, o.name = a.target) ∧
      ((exec (finish "User" "" "") (afterActions {} actions)).1 =
          (directBuilder (afterActions {} actions) as "User" "" "").finish.mapError .schema ∧
        (exec (finish "User" "" "") (afterActions {} actions)).2.objects =
          (afterActions {} actions).objects.map (declareDirect as) ∧
        ∀ o ∈ (afterActions {} actions).objects,
          ∃ o' ∈ (exec (finish "User" "" "") (afterActions {} actions)).2.objects,
            o'.name = o.name ∧ ∃ injected, o'.fields = o.fields ++ injected ∧
              injected.Perm (injectedFields as o.name)) := by
  intro avatar user actions as
  have targeted : ∀ a ∈ as, ∃ o ∈ (afterActions {} actions).objects, o.name = a.target := by
    intro a mem
    rw [List.mem_singleton] at mem
    subst mem
    exact ⟨user, List.mem_singleton_self _, rfl⟩
  exact ⟨rfl, rfl, targeted, finish_refines_direct actions as "User" "" "" rfl rfl targeted⟩

end GraphWeave.Registry
