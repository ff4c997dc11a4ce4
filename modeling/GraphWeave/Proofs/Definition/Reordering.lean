import GraphWeave.Proofs.Definition.Acceptance
import GraphWeave.Definition.Runtime
import Mathlib

/-!
Reordering a builder's definitions: builders whose definitions differ only in order both fail, or
both build schemas with the same text.
-/

namespace GraphWeave

/-- Sorting by name two lists of the same entries, no two of a name, gives one list. -/
theorem mergeSort_name_eq_of_perm {α : Type} (name : α → String) {l₁ l₂ : List α}
    (same : l₁.Perm l₂) (distinct : (l₂.map name).Nodup) :
    l₁.mergeSort (fun a b => decide (name a ≤ name b)) =
      l₂.mergeSort fun a b => decide (name a ≤ name b) := by
  have total : ∀ a b : α, (decide (name a ≤ name b) || decide (name b ≤ name a)) = true := by
    intro a b
    simpa using le_total (name a) (name b)
  have trans : ∀ a b c : α, decide (name a ≤ name b) = true → decide (name b ≤ name c) = true →
      decide (name a ≤ name c) = true := by
    intro a b c ab bc
    simpa using le_trans (by simpa using ab) (by simpa using bc)
  refine List.Perm.eq_of_pairwise ?_ (List.pairwise_mergeSort trans total _)
    (List.pairwise_mergeSort trans total _)
    ((List.mergeSort_perm _ _).trans (same.trans (List.mergeSort_perm _ _).symm))
  intro a b inFirst inSecond ab ba
  have first : a ∈ l₂ := same.subset (List.mem_mergeSort.mp inFirst)
  have second : b ∈ l₂ := List.mem_mergeSort.mp inSecond
  exact List.inj_on_of_nodup_map distinct first second
    (le_antisymm (by simpa using ab) (by simpa using ba))

namespace Schema

theorem NamedType.pieces_shape (t : NamedType) : t.shape.pieces = t.pieces := by
  unfold NamedType.shape
  split
  · rename_i iface
    simp only [NamedType.pieces, iface]
  · rfl

theorem render_shape (s : Schema) : s.shape.render = s.render := by
  have sorted : ((s.types.map NamedType.shape).filter (!·.builtin)).mergeSort
        (fun a b => decide (a.name ≤ b.name)) =
      ((s.types.filter (!·.builtin)).mergeSort fun a b => decide (a.name ≤ b.name)).map
        NamedType.shape := by
    have kept : ((fun t : NamedType => !t.builtin) ∘ NamedType.shape) = fun t => !t.builtin := by
      funext t
      simp
    rw [List.filter_map, kept,
      List.map_mergeSort (s := fun a b => decide (a.name ≤ b.name)) fun a _ b _ => by simp]
  simp only [render, pieces, shape_types, sorted, List.map_map, Function.comp_def,
    NamedType.pieces_shape]
  rfl

theorem render_eq_of_perm {s s' : Schema} (reordered : s'.types.Perm s.types)
    (distinct : (s.types.map (·.name)).Nodup) (rest : { s' with types := s.types } = s) :
    s'.render = s.render := by
  have sorted : (s'.types.filter (!·.builtin)).mergeSort (fun a b => decide (a.name ≤ b.name)) =
      (s.types.filter (!·.builtin)).mergeSort fun a b => decide (a.name ≤ b.name) :=
    mergeSort_name_eq_of_perm NamedType.name (reordered.filter _)
      (distinct.sublist (List.filter_sublist.map _))
  rw [← rest]
  simp only [render, pieces, rootPieces, sorted]

theorem type?_eq_of_perm {s s' : Schema} (reordered : s'.types.Perm s.types)
    (distinct : (s.types.map (·.name)).Nodup) (name : String) : s'.type? name = s.type? name := by
  apply Option.ext
  intro t
  rw [type?, type?, find?_key_eq_some_iff _ ((reordered.map _).nodup_iff.mpr distinct),
    find?_key_eq_some_iff _ distinct, reordered.mem_iff]

end Schema

namespace SchemaBuilder

variable {σ : Type}

open Schema

theorem FreshNames.perm {b b' : SchemaBuilder σ} (fresh : b.FreshNames)
    (reordered : b'.definitions.Perm b.definitions) : b'.FreshNames where
  distinct := ((reordered.map _).nodup_iff).mpr fresh.distinct
  unreserved d mem := fresh.unreserved d (reordered.subset mem)
  notBuiltin d mem := fresh.notBuiltin d (reordered.subset mem)

theorem checkedState_raw (b : SchemaBuilder σ) : b.checkedState.raw = b.implementedState.raw := by
  rw [checkedState_eq, BuildState.checkRoots_eq, BuildState.record_raw]

/-- The text of what a builder of fresh names builds is that of the schema its definitions
declare, with its roots. -/
theorem render_checked_of_fresh {b : SchemaBuilder σ} (fresh : b.FreshNames) :
    ({ b.checkedState.raw with
        query := b.query, mutation := b.mutation, subscription := b.subscription } : Schema).render =
      ({ b.declared with
        query := b.query, mutation := b.mutation, subscription := b.subscription } : Schema).render := by
  have shaped : b.checkedState.raw.shape = b.declared.shape := by
    rw [checkedState_raw]
    exact (implementedState_of_fresh fresh).2
  rw [← render_shape, ← render_shape ({ b.declared with
    query := b.query, mutation := b.mutation, subscription := b.subscription } : Schema)]
  have rooted : ∀ s : Schema, ({ s with
      query := b.query, mutation := b.mutation, subscription := b.subscription } : Schema).shape =
        { s.shape with query := b.query, mutation := b.mutation, subscription := b.subscription } :=
    fun _ => rfl
  rw [rooted, rooted, shaped]

section Perm

variable (b : SchemaBuilder σ) {ds : List (Definition σ)}

/-- Builders whose definitions differ only in order both fail, or both build schemas with the
same text. -/
theorem finish_sdl_perm (reordered : ds.Perm b.definitions) :
    ({ b with definitions := ds } : SchemaBuilder σ).finish.toOption.map ExecutableSchema.sdl =
      b.finish.toOption.map ExecutableSchema.sdl := by
  set b' : SchemaBuilder σ := { b with definitions := ds }
  have reordered' : b'.definitions.Perm b.definitions := reordered
  have answers : ∀ c : SchemaBuilder σ, c.finish.toOption.map ExecutableSchema.sdl =
      if c.checkedState.violations.toList = [] then
        some ({ c.checkedState.raw with
          query := c.query, mutation := c.mutation, subscription := c.subscription } : Schema).render
      else none := by
    intro c
    rw [finish_eq]
    by_cases empty : c.checkedState.violations.toList = []
    · rw [if_pos (by simpa using empty), if_pos empty]
      rfl
    · rw [if_neg (by simpa using empty), if_neg empty]
      rfl
  rw [answers, answers]
  by_cases fresh : b.FreshNames
  · have fresh' := fresh.perm reordered'
    have declaredTypes : b'.declared.types.Perm b.declared.types := (reordered'.map _).append_left _
    have lookups : b'.declared.lookup = b.declared.lookup := by
      funext name
      rw [lookup, lookup, type?_eq_of_perm declaredTypes (declared_names_nodup fresh)]
    have violations : b'.checkedState.violations.toList.Perm b.checkedState.violations.toList := by
      rw [checkedState_of_fresh fresh, checkedState_of_fresh fresh', referencesLog_congr lookups,
        implementsLog_congr lookups, rootsLog_congr lookups]
      exact (((reordered'.flatMap_right _).append (reordered'.flatMap_right _)).append
        (reordered'.flatMap_right _)).append (List.Perm.refl _)
    have sameText : ({ b'.declared with
        query := b.query, mutation := b.mutation, subscription := b.subscription } : Schema).render =
          ({ b.declared with
            query := b.query, mutation := b.mutation, subscription := b.subscription } : Schema).render :=
      render_eq_of_perm declaredTypes (declared_names_nodup fresh) rfl
    rw [render_checked_of_fresh fresh, render_checked_of_fresh fresh']
    rw [sameText]
    have bothEmpty : b'.checkedState.violations.toList = [] ↔ b.checkedState.violations.toList = [] := by
      rw [← List.length_eq_zero_iff, violations.length_eq, List.length_eq_zero_iff]
    by_cases empty : b.checkedState.violations.toList = []
    · rw [if_pos empty, if_pos (bothEmpty.mpr empty)]
    · rw [if_neg empty, if_neg (mt bothEmpty.mp empty)]
  · have stale' : ¬ b'.FreshNames := fun fresh' => fresh (fresh'.perm reordered'.symm)
    rw [if_neg (checkedState_of_stale fresh), if_neg (checkedState_of_stale stale')]

theorem finish_toOption_of_repeated {o : ObjectDef σ} (mem : .object o ∈ b.definitions)
    (repeated : ¬ (o.fields.map (·.name)).Nodup) : b.finish.toOption = none := by
  have violated : b.checkedState.violations.toList ≠ [] := by
    by_cases fresh : b.FreshNames
    · have raised := Definition.added_object_repeated o repeated
      rw [checkedState_of_fresh fresh]
      intro empty
      simp only [List.append_eq_nil_iff, List.flatMap_eq_nil_iff] at empty
      exact raised (empty.1.1.1 _ mem)
    · exact checkedState_of_stale fresh
  rw [finish_eq, if_neg (by simpa using violated)]
  rfl

end Perm

end SchemaBuilder

end GraphWeave
