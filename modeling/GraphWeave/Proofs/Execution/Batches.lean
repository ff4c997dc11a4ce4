import GraphWeave.Proofs.Execution.Footprint

/-! Batches keep the response consistent with the state of the run.

Between batches the tree holds a placeholder for each field still queued, and the recorded errors
and marks lie at positions of the tree that are nulled. `Consistent` states this; completing a
batch result keeps it (`Consistent.place`), whether the value is written where its placeholder
stands or its null goes to the field's boundary. A run of the operation ends with no queued
field, so its data holds no placeholder and every error it recorded lies at a nulled position. -/

namespace GraphWeave.Exec

open ResponseValue

variable {σ : Type} {c : ExecContext σ}

theorem isNullified_iff {st : ExecState σ} {p : Path} :
    isNullified st p = true ↔ ∃ m ∈ st.nullified, m <+: p := by
  simp [isNullified]

theorem isNullified_of_mark {st : ExecState σ} {m p : Path} (marked : m ∈ st.nullified)
    (below : m <+: p) : isNullified st p = true :=
  isNullified_iff.mpr ⟨m, marked, below⟩

theorem isNullified_mono {st st' : ExecState σ} {M : List Path}
    (grows : st'.nullified = st.nullified ++ M) {p : Path} (nulled : isNullified st p = true) :
    isNullified st' p = true := by
  obtain ⟨m, marked, below⟩ := isNullified_iff.mp nulled
  exact isNullified_of_mark (by simp [grows, marked]) below

/-- The tree of a running operation agrees with its state and the fields still to complete:
errors and marks lie at nulled positions, each field still to complete is marked or holds a
placeholder, each placeholder has its field, no two fields share a path, and each field's
boundary lies on its path. -/
structure Consistent (tree : ResponseValue) (st : ExecState σ) (tasks : List AsyncTask) : Prop where
  root : tree ≠ .pending
  errors : ∀ e ∈ st.errors.toList, tree.nulledAt e.path
  marks : ∀ m ∈ st.nullified, tree.nulledAt m
  queued : ∀ t ∈ tasks, isNullified st t.task.path = true ∨ tree.at? t.task.path = some .pending
  placeholders : ∀ p, tree.at? p = some .pending → ∃ t ∈ tasks, t.task.path = p
  distinct : (tasks.map (·.task.path)).Nodup
  bounded : ∀ t ∈ tasks, t.Bounded

/-- The data root is null, or the tree is consistent. -/
def Holds (tree : ResponseValue) (st : ExecState σ) (tasks : List AsyncTask) : Prop :=
  st.dataNull = true ∨ Consistent tree st tasks

section Consistent

variable {tree : ResponseValue} {st : ExecState σ} {t : AsyncTask} {old : List AsyncTask}

theorem Consistent.live {tasks : List AsyncTask} (inv : Consistent tree st tasks) {p : Path}
    (placeholder : tree.at? p = some .pending) : isNullified st p = false := by
  cases nulled : isNullified st p with
  | false => rfl
  | true =>
    obtain ⟨m, marked, below⟩ := isNullified_iff.mp nulled
    exact absurd below (apart_of_nulledAt (inv.marks m marked) placeholder).1

/-- Every other field still to complete lies apart from a field whose placeholder stands. -/
theorem Consistent.apart (inv : Consistent tree st (t :: old))
    (placeholder : tree.at? t.task.path = some .pending) :
    ∀ t' ∈ old, ¬ t.task.path <+: t'.task.path ∧ ¬ t'.task.path <+: t.task.path := by
  intro t' member
  have differs : t.task.path ≠ t'.task.path := by
    intro same
    have distinct := inv.distinct
    simp only [List.map_cons, List.nodup_cons] at distinct
    exact distinct.1 (same ▸ List.mem_map_of_mem member)
  rcases inv.queued t' (List.mem_cons_of_mem _ member) with nulled | pending
  · obtain ⟨m, marked, below⟩ := isNullified_iff.mp nulled
    have away := apart_of_nulledAt (inv.marks m marked) placeholder
    constructor
    · intro above
      rcases List.prefix_or_prefix_of_prefix above below with h | h
      · exact away.2 h
      · exact away.1 h
    · intro above
      exact away.1 (below.trans above)
  · exact apart_of_pending placeholder pending differs

theorem Consistent.drop (inv : Consistent tree st (t :: old))
    (nulled : isNullified st t.task.path = true) : Consistent tree st old where
  root := inv.root
  errors := inv.errors
  marks := inv.marks
  queued t' member := inv.queued t' (List.mem_cons_of_mem _ member)
  placeholders p placeholder := by
    obtain ⟨t', member, at_path⟩ := inv.placeholders p placeholder
    rcases List.mem_cons.mp member with rfl | member
    · rw [at_path, inv.live placeholder] at nulled
      cases nulled
    · exact ⟨t', member, at_path⟩
  distinct := (List.nodup_cons.mp (by simpa using inv.distinct)).2
  bounded t' member := inv.bounded t' (List.mem_cons_of_mem _ member)

theorem Consistent.distinct_append (inv : Consistent tree st (t :: old))
    (placeholder : tree.at? t.task.path = some .pending) {T : List AsyncTask}
    (below : ∀ t' ∈ T, t.task.path <+: t'.task.path) (distinct : (T.map (·.task.path)).Nodup) :
    ((old ++ T).map (·.task.path)).Nodup := by
  rw [List.map_append, List.nodup_append]
  refine ⟨(List.nodup_cons.mp (by simpa using inv.distinct)).2, distinct, ?_⟩
  intro p₁ first p₂ second same
  obtain ⟨t₁, member₁, rfl⟩ := List.mem_map.mp first
  obtain ⟨t₂, member₂, rfl⟩ := List.mem_map.mp second
  exact (inv.apart placeholder t₁ member₁).1 (same ▸ below t₂ member₂)

theorem Consistent.path_ne_nil {tasks : List AsyncTask} (inv : Consistent tree st tasks) {p : Path}
    (placeholder : tree.at? p = some .pending) : p ≠ [] := by
  rintro rfl
  rw [at?_nil, Option.some.injEq] at placeholder
  exact inv.root placeholder

/-- Writing a completed value where its placeholder stands keeps the tree consistent, with the
fields the completion queued. -/
theorem Consistent.write (inv : Consistent tree st (t :: old))
    (placeholder : tree.at? t.task.path = some .pending) {st₁ : ExecState σ} {v : ResponseValue}
    {E : List ResponseError} {M : List Path} {T : List AsyncTask} (added : Added st st₁ E M T)
    (under : Under t.task.path v E M T) :
    Consistent (tree.setAt t.task.path v) st₁ (old ++ T) := by
  have nonempty := inv.path_ne_nil placeholder
  constructor
  · exact setAt_ne_pending inv.root _ _
  · intro e member
    rw [added.errors_eq] at member
    rcases List.mem_append.mp member with member | member
    · exact nulledAt_setAt_of_pending placeholder (inv.errors e member)
    · obtain ⟨rel, at_path, nulled⟩ := under.errors e member
      rw [at_path, nulledAt_setAt_append placeholder nonempty rel]
      exact nulled
  · intro m member
    rw [added.marks_eq] at member
    rcases List.mem_append.mp member with member | member
    · exact nulledAt_setAt_of_pending placeholder (inv.marks m member)
    · obtain ⟨rel, rfl, nulled⟩ := under.marks m member
      rw [nulledAt_setAt_append placeholder nonempty rel]
      exact nulled
  · intro t' member
    rcases List.mem_append.mp member with member | member
    · rcases inv.queued t' (List.mem_cons_of_mem _ member) with nulled | pending
      · exact .inl (isNullified_mono added.marks_eq nulled)
      · obtain ⟨above, below⟩ := inv.apart placeholder t' member
        rw [at?_setAt_of_apart above below]
        exact .inr pending
    · obtain ⟨rel, at_path, placed⟩ := under.tasks t' member
      rcases placed with pending | ⟨m, marked, below⟩ | ⟨root, -⟩
      · rw [at_path, at?_setAt_append placeholder nonempty rel]
        exact .inr pending
      · exact .inl (isNullified_of_mark (by simp [added.marks_eq, marked]) below)
      · exact absurd root nonempty
  · intro p pending
    by_cases above : t.task.path <+: p
    · obtain ⟨rel, rfl⟩ := above
      rw [at?_setAt_append placeholder nonempty rel] at pending
      obtain ⟨t', member, at_path⟩ := under.placeholders rel pending
      exact ⟨t', List.mem_append_right _ member, at_path⟩
    by_cases below : p <+: t.task.path
    · obtain ⟨x, same⟩ := below
      cases x with
      | nil => exact absurd (by simp [← same]) above
      | cons s x =>
        have written := at?_setAt_append placeholder nonempty (v := v) []
        have beyond := at?_below_pending pending s x
        rw [same] at beyond
        rw [List.append_nil, beyond] at written
        cases written
    · rw [at?_setAt_of_apart above below] at pending
      obtain ⟨t', member, at_path⟩ := inv.placeholders p pending
      rcases List.mem_cons.mp member with rfl | member
      · exact absurd (by simp [at_path]) above
      · exact ⟨t', List.mem_append_left _ member, at_path⟩
  · refine inv.distinct_append placeholder (fun t' member => ?_) under.distinct
    obtain ⟨rel, at_path, -⟩ := under.tasks t' member
    exact ⟨rel, at_path.symm⟩
  · intro t' member
    rcases List.mem_append.mp member with member | member
    · exact inv.bounded t' (List.mem_cons_of_mem _ member)
    · exact under.bounded t' member

/-- Writing null at the boundary of a non-null field that came out null keeps the tree
consistent: the boundary is marked, and with it every field the completion queued. -/
theorem Consistent.nullBoundary (inv : Consistent tree st (t :: old))
    (placeholder : tree.at? t.task.path = some .pending) (nonNull : t.type.isNonNull = true)
    (nonempty : t.boundary ≠ []) {st₁ st' : ExecState σ} {E : List ResponseError} {M : List Path}
    {T : List AsyncTask} (added : Added st st₁ E M T) (under : Under t.task.path .null E M T)
    (marked : (markNullified t.boundary).run st₁ = some (⟨⟩, st')) :
    Consistent (tree.setAt t.boundary .null) st' (old ++ T) := by
  obtain ⟨lies, strict⟩ := inv.bounded t List.mem_cons_self
  obtain ⟨x, same⟩ := lies
  have present : ∃ w, tree.at? t.boundary = some w := by
    rw [← same, at?_append] at placeholder
    cases above : tree.at? t.boundary with
    | none => simp [above] at placeholder
    | some w => exact ⟨w, rfl⟩
  obtain ⟨w, present⟩ := present
  obtain ⟨M₂, at_boundary, recorded, added₂⟩ := added_markNullified marked
  have boundaryMarked : t.boundary ∈ st'.nullified := by
    rw [added₂.marks_eq]
    exact List.mem_append_right _ (recorded.resolve_left nonempty)
  have all := added.trans added₂
  simp only [List.append_nil] at all
  have beneath : ∀ rel, t.boundary <+: t.task.path ++ rel := fun rel =>
    ⟨x ++ rel, by rw [← List.append_assoc, same]⟩
  constructor
  · exact setAt_ne_pending inv.root _ _
  · intro e member
    rw [all.errors_eq] at member
    rcases List.mem_append.mp member with member | member
    · exact nulledAt_setAt_null present nonempty (.inl (inv.errors e member))
    · obtain ⟨rel, at_path, -⟩ := under.errors e member
      exact nulledAt_setAt_null present nonempty (.inr (at_path ▸ beneath rel))
  · intro m member
    rw [all.marks_eq] at member
    rcases List.mem_append.mp member with member | member
    · exact nulledAt_setAt_null present nonempty (.inl (inv.marks m member))
    rcases List.mem_append.mp member with member | member
    · obtain ⟨rel, rfl, -⟩ := under.marks m member
      exact nulledAt_setAt_null present nonempty (.inr (beneath rel))
    · rw [at_boundary m member]
      exact nulledAt_setAt_null present nonempty (.inr (List.prefix_refl _))
  · intro t' member
    rcases List.mem_append.mp member with member | member
    · rcases inv.queued t' (List.mem_cons_of_mem _ member) with nulled | pending
      · exact .inl (isNullified_mono all.marks_eq nulled)
      · by_cases covered : t.boundary <+: t'.task.path
        · exact .inl (isNullified_of_mark boundaryMarked covered)
        obtain ⟨above, below⟩ := inv.apart placeholder t' member
        have apart : ¬ t'.task.path <+: t.boundary := fun h => below (h.trans ⟨x, same⟩)
        rw [at?_setAt_of_apart covered apart]
        exact .inr pending
    · obtain ⟨rel, at_path, -⟩ := under.tasks t' member
      exact .inl (isNullified_of_mark boundaryMarked (at_path ▸ beneath rel))
  · intro p pending
    by_cases above : t.boundary <+: p
    · obtain ⟨y, rfl⟩ := above
      rw [at?_setAt_append present nonempty y] at pending
      cases y <;> simp at pending
    by_cases below : p <+: t.boundary
    · obtain ⟨y, same'⟩ := below
      cases y with
      | nil => exact absurd (by simp [← same']) above
      | cons s y =>
        have written := at?_setAt_append present nonempty (v := .null) []
        have beyond := at?_below_pending pending s y
        rw [same'] at beyond
        rw [List.append_nil, beyond] at written
        cases written
    · rw [at?_setAt_of_apart above below] at pending
      obtain ⟨t', member, at_path⟩ := inv.placeholders p pending
      rcases List.mem_cons.mp member with rfl | member
      · exact absurd (at_path ▸ ⟨x, same⟩) above
      · exact ⟨t', List.mem_append_left _ member, at_path⟩
  · refine inv.distinct_append placeholder (fun t' member => ?_) under.distinct
    obtain ⟨rel, at_path, -⟩ := under.tasks t' member
    exact ⟨rel, at_path.symm⟩
  · intro t' member
    rcases List.mem_append.mp member with member | member
    · exact inv.bounded t' (List.mem_cons_of_mem _ member)
    · exact under.bounded t' member

end Consistent

/-! One result of a batch. -/

section Step

variable {fuel : Nat} {t : AsyncTask} {result : Except FieldError Resolved}
  {tree tree' v : ResponseValue} {st st' : ExecState σ}

/-- Writing a completed result goes one of three ways: a null at a non-null field of the data
root makes the data null, one elsewhere goes to the field's boundary, and any other value is
written at the field's path. -/
theorem placeAsync_cases (h : (placeAsync t v tree).run st = some (tree', st')) :
    (v.isNull = true ∧ t.type.isNonNull = true ∧ t.boundary = [] ∧ tree' = tree ∧
      st' = { st with dataNull := true }) ∨
    (v.isNull = true ∧ t.type.isNonNull = true ∧ t.boundary ≠ [] ∧
      tree' = tree.setAt t.boundary .null ∧ (markNullified t.boundary).run st = some (⟨⟩, st')) ∨
    ((v.isNull && t.type.isNonNull) = false ∧ tree' = tree.setAt t.task.path v ∧ st' = st) := by
  unfold placeAsync at h
  split at h
  · rename_i both
    simp only [Bool.and_eq_true] at both
    split at h
    · rename_i empty
      simp only [run_bind_eq_some, run_pure_eq_some] at h
      obtain ⟨⟨⟩, st₁, modified, rfl, rfl⟩ := h
      have same : st₁ = { st with dataNull := true } := by simpa [eq_comm] using modified
      exact .inl ⟨both.1, both.2, by simpa using empty, rfl, same⟩
    · rename_i nonempty
      simp only [run_bind_eq_some, run_pure_eq_some] at h
      obtain ⟨⟨⟩, st₁, marked, rfl, rfl⟩ := h
      exact .inr (.inl ⟨both.1, both.2, by simpa using nonempty, rfl, marked⟩)
  · rename_i either
    simp only [run_pure_eq_some] at h
    obtain ⟨rfl, rfl⟩ := h
    exact .inr (.inr ⟨by simpa using either, rfl, rfl⟩)

/-- A result is dropped when its field lies in a marked subtree, and otherwise completed and
then written. -/
theorem completeAsync_cases (h : (completeAsync c fuel t result tree).run st = some (tree', st')) :
    (isNullified st t.task.path = true ∧ tree' = tree ∧ st' = st) ∨
    (isNullified st t.task.path = false ∧ ∃ v st₁,
      (completeResult c fuel t result).run st = some (v, st₁) ∧
      (placeAsync t v tree).run st₁ = some (tree', st')) := by
  unfold completeAsync at h
  simp only [run_bind_eq_some] at h
  obtain ⟨st₀, st₁, got, h⟩ := h
  simp [get, getThe, MonadStateOf.get] at got
  obtain ⟨rfl, rfl⟩ := got
  split at h
  · rename_i nulled
    simp only [run_pure_eq_some] at h
    obtain ⟨rfl, rfl⟩ := h
    exact .inl ⟨nulled, rfl, rfl⟩
  · rename_i live
    simp only [run_bind_eq_some] at h
    obtain ⟨v, st₂, completed, placed⟩ := h
    exact .inr ⟨by simpa using live, v, st₂, completed, placed⟩

theorem completeResult_under (h : (completeResult c fuel t result).run st = some (v, st'))
    (bounded : t.boundary <+: t.task.path) :
    ∃ E M T, Added st st' E M T ∧ Under t.task.path v E M T := by
  cases result with
  | error e =>
    simp only [completeResult, run_bind_eq_some, run_pure_eq_some] at h
    obtain ⟨⟨⟩, st₁, recorded, rfl, rfl⟩ := h
    obtain ⟨err, at_path, added⟩ := added_addFieldError recorded
    exact ⟨[err], [], [], added, Under.null_of_errors (by simp [at_path])⟩
  | ok r => exact ((sound c fuel).value _ _ _ _ _ _ _ _ h).under bounded

/-- Completing one result keeps the tree consistent with the fields still to complete and those
it queued, unless it made the data null. -/
theorem Consistent.completeAsync {old : List AsyncTask} (inv : Consistent tree st (t :: old))
    (h : (completeAsync c fuel t result tree).run st = some (tree', st')) :
    ∃ T, st'.queue.toList = st.queue.toList ++ T ∧ Holds tree' st' (old ++ T) := by
  rcases completeAsync_cases h with ⟨nulled, rfl, rfl⟩ | ⟨live, v, st₁, completed, placed⟩
  · exact ⟨[], by simp, .inr (by simpa using inv.drop nulled)⟩
  have placeholder : tree.at? t.task.path = some .pending :=
    (inv.queued t List.mem_cons_self).resolve_left (by simp [live])
  obtain ⟨E, M, T, added, under⟩ :=
    completeResult_under completed (inv.bounded t List.mem_cons_self).1
  rcases placeAsync_cases placed with
    ⟨-, -, -, rfl, rfl⟩ | ⟨null, nonNull, nonempty, rfl, marked⟩ | ⟨-, rfl, rfl⟩
  · exact ⟨T, added.queue_eq, .inl rfl⟩
  · have same := eq_null_of_isNull null
    subst same
    obtain ⟨M₂, -, -, added₂⟩ := added_markNullified marked
    refine ⟨T, ?_, .inr (inv.nullBoundary placeholder nonNull nonempty added under marked)⟩
    rw [added₂.queue_eq, added.queue_eq, List.append_nil]
  · exact ⟨T, added.queue_eq, .inr (inv.write placeholder added under)⟩

end Step

/-! Whole batches, and the run of an operation. -/

section Run

variable {fuel : Nat}

theorem length_fitResults (n : Nat) (results : List (Except FieldError Resolved)) :
    (fitResults n results).length = n := by
  simp [fitResults]

theorem fitResults_of_length {n : Nat} {results : List (Except FieldError Resolved)}
    (length : results.length = n) : fitResults n results = results := by
  subst length
  refine List.ext_getElem (length_fitResults _ _) fun i inFit inResults => ?_
  simp [fitResults, List.getElem?_eq_getElem inResults]

theorem resolveAll_run {tasks : List AsyncTask} {st st' : ExecState σ}
    {rs : List (Except FieldError Resolved)} (h : (resolveAll c tasks).run st = some (rs, st')) :
    rs.length = tasks.length ∧ Added st st' [] [] [] := by
  unfold resolveAll at h
  split at h
  · rename_i empty
    simp only [run_pure_eq_some] at h
    obtain ⟨rfl, rfl⟩ := h
    exact ⟨by simp [List.isEmpty_iff.mp empty], Added.refl _⟩
  · simp only [run_bind_eq_some, run_pure_eq_some] at h
    obtain ⟨results, st₁, resolved, rfl, rfl⟩ := h
    exact ⟨length_fitResults _ _, added_resolveBatch resolved⟩

/-- The fields a batch runs: those queued outside every marked subtree. -/
theorem Consistent.keepLive {tree : ResponseValue} {st st' : ExecState σ} {tasks : List AsyncTask}
    (inv : Consistent tree st tasks) (errors : st'.errors = st.errors)
    (marks : st'.nullified = st.nullified) :
    Consistent tree st' (tasks.filter fun t => !isNullified st t.task.path) where
  root := inv.root
  errors := errors ▸ inv.errors
  marks := marks ▸ inv.marks
  queued t member := by
    simp only [List.mem_filter, Bool.not_eq_true'] at member
    rcases inv.queued t member.1 with nulled | pending
    · rw [member.2] at nulled
      cases nulled
    · exact .inr pending
  placeholders p pending := by
    obtain ⟨t, member, at_path⟩ := inv.placeholders p pending
    refine ⟨t, List.mem_filter.mpr ⟨member, ?_⟩, at_path⟩
    rw [at_path, inv.live pending]
    rfl
  distinct := inv.distinct.sublist (List.filter_sublist.map _)
  bounded t member := inv.bounded t (List.mem_filter.mp member).1

/-- One call of the batch loop: it stops at once when no field is queued or the data root is
null; otherwise it resolves the fields queued outside every marked subtree, completes their
results in order, and goes on with one round fewer. -/
theorem runBatches_cases {rounds : Nat} {tree tree' : ResponseValue} {st st' : ExecState σ}
    (h : (runBatches c fuel rounds tree).run st = some (tree', st')) :
    ((st.queue.isEmpty || st.dataNull) = true ∧ tree' = tree ∧ st' = st) ∨
    ∃ rest, rounds = rest + 1 ∧ (st.queue.isEmpty || st.dataNull) = false ∧
      ∃ results st₁ tree₁ st₂,
        (resolveAll c (st.queue.toList.filter fun t => !isNullified st t.task.path)).run
          { st with queue := #[] } = some (results, st₁) ∧
        (completeBatch c fuel tree
          ((st.queue.toList.filter fun t => !isNullified st t.task.path).zip results)).run st₁ =
          some (tree₁, st₂) ∧
        (runBatches c fuel rest tree₁).run st₂ = some (tree', st') := by
  unfold Exec.runBatches at h
  simp only [run_bind_eq_some] at h
  obtain ⟨st₀, st₁, got, h⟩ := h
  simp [get, getThe, MonadStateOf.get] at got
  obtain ⟨rfl, rfl⟩ := got
  split at h
  · rename_i stopped
    simp only [run_pure_eq_some] at h
    obtain ⟨rfl, rfl⟩ := h
    exact .inl ⟨stopped, rfl, rfl⟩
  · rename_i running
    cases rounds with
    | zero => exact absurd h run_failure_ne_some
    | succ rest =>
      simp only [run_bind_eq_some] at h
      obtain ⟨⟨⟩, st₂, cleared, results, st₃, resolved, tree₁, st₄, batch, h⟩ := h
      simp only [set, StateT.set, StateT.run, pure, Option.some.injEq, Prod.mk.injEq] at cleared
      obtain ⟨-, rfl⟩ := cleared
      exact .inr ⟨rest, rfl, by simpa using running, results, st₃, tree₁, st₄, resolved, batch, h⟩

/-- What an invariant of the tree, the state and the fields still to complete must meet for the
batch loop to keep it: completing the first field of a batch keeps it for the rest of the batch
and the fields queued so far, unless the data root became null; and before a batch runs, the
fields may be narrowed to those outside every marked subtree while only the host changes. -/
structure BatchInvariant (c : ExecContext σ) (fuel : Nat)
    (I : ResponseValue → ExecState σ → List AsyncTask → Prop) : Prop where
  step : ∀ {t : AsyncTask} {rest : List AsyncTask} {result : Except FieldError Resolved}
    {tree tree' : ResponseValue} {st st' : ExecState σ},
    I tree st (t :: rest ++ st.queue.toList) →
    (completeAsync c fuel t result tree).run st = some (tree', st') →
    st'.dataNull = true ∨ I tree' st' (rest ++ st'.queue.toList)
  keepLive : ∀ {tree : ResponseValue} {st st' : ExecState σ} {tasks : List AsyncTask},
    I tree st tasks → st'.errors = st.errors → st'.nullified = st.nullified →
    I tree st' (tasks.filter fun t => !isNullified st t.task.path)

namespace BatchInvariant

variable {I : ResponseValue → ExecState σ → List AsyncTask → Prop}

/-- Completing a batch's results in order keeps the invariant, until the data root is null. -/
theorem completeBatch (inv : BatchInvariant c fuel I) :
    ∀ (pairs : List (AsyncTask × Except FieldError Resolved)) {tree tree' : ResponseValue}
      {st st' : ExecState σ}, I tree st (pairs.map Prod.fst ++ st.queue.toList) →
      st.dataNull = false → (Exec.completeBatch c fuel tree pairs).run st = some (tree', st') →
      st'.dataNull = true ∨ I tree' st' st'.queue.toList
  | [], tree, tree', st, st', holds, _, h => by
    simp only [Exec.completeBatch, run_pure_eq_some] at h
    obtain ⟨rfl, rfl⟩ := h
    exact .inr (by simpa using holds)
  | (t, r) :: rest, tree, tree', st, st', holds, _, h => by
    simp only [Exec.completeBatch, run_bind_eq_some] at h
    obtain ⟨tree₁, st₁, step, st₂, st₃, got, h⟩ := h
    simp [get, getThe, MonadStateOf.get] at got
    obtain ⟨rfl, rfl⟩ := got
    have next := inv.step holds step
    split at h
    · rename_i null
      simp only [run_pure_eq_some] at h
      obtain ⟨rfl, rfl⟩ := h
      exact .inl null
    · rename_i live
      exact inv.completeBatch rest (next.resolve_left live) (by simpa using live) h

/-- One batch keeps the invariant for the fields queued after it. -/
theorem batch (inv : BatchInvariant c fuel I) {tree tree₁ : ResponseValue}
    {st st₁ st₂ : ExecState σ} {results : List (Except FieldError Resolved)}
    (holds : I tree st st.queue.toList) (running : (st.queue.isEmpty || st.dataNull) = false)
    (resolved : (resolveAll c (st.queue.toList.filter fun t => !isNullified st t.task.path)).run
      { st with queue := #[] } = some (results, st₁))
    (batch : (Exec.completeBatch c fuel tree
      ((st.queue.toList.filter fun t => !isNullified st t.task.path).zip results)).run st₁ =
      some (tree₁, st₂)) :
    st₂.dataNull = true ∨ I tree₁ st₂ st₂.queue.toList := by
  simp only [Bool.or_eq_false_iff] at running
  obtain ⟨length, added⟩ := resolveAll_run resolved
  have errors : st₁.errors = st.errors := Array.toList_inj.mp (by simpa using added.errors_eq)
  have live := inv.keepLive holds errors (by simpa using added.marks_eq)
  have noQueue : st₁.queue.toList = [] := by simp [added.queue_eq]
  have pairs : (List.zip (st.queue.toList.filter fun t => !isNullified st t.task.path)
      results).map Prod.fst ++ st₁.queue.toList =
      st.queue.toList.filter fun t => !isNullified st t.task.path := by
    rw [noQueue, List.append_nil, List.map_fst_zip]
    simp [length]
  rw [← pairs] at live
  exact inv.completeBatch _ live (by simp [added.dataNull_eq, running.2]) batch

theorem finished {tree : ResponseValue} {st : ExecState σ}
    (holds : st.dataNull = true ∨ I tree st st.queue.toList)
    (stopped : (st.queue.isEmpty || st.dataNull) = true) :
    st.dataNull = true ∨ (I tree st [] ∧ st.queue.toList = []) := by
  rcases holds with null | holds
  · exact .inl null
  cases null : st.dataNull with
  | true => exact .inl rfl
  | false =>
    simp only [null, Bool.or_false, Array.isEmpty_iff] at stopped
    have empty : st.queue.toList = [] := by simp [stopped]
    exact .inr ⟨empty ▸ holds, empty⟩

/-- Batches keep the invariant; the run ends with no field left to complete, or with a null data
root. -/
theorem runBatches (inv : BatchInvariant c fuel I) (rounds : Nat) {tree tree' : ResponseValue}
    {st st' : ExecState σ} (holds : st.dataNull = true ∨ I tree st st.queue.toList)
    (h : (Exec.runBatches c fuel rounds tree).run st = some (tree', st')) :
    st'.dataNull = true ∨ (I tree' st' [] ∧ st'.queue.toList = []) := by
  induction rounds generalizing tree st with
  | zero =>
    rcases runBatches_cases h with ⟨stopped, rfl, rfl⟩ | ⟨_, impossible, _⟩
    · exact finished holds stopped
    · cases impossible
  | succ rounds ih =>
    rcases runBatches_cases h with ⟨stopped, rfl, rfl⟩ |
      ⟨_, same, running, results, st₁, tree₁, st₂, resolved, batch, rest⟩
    · exact finished holds stopped
    · cases same
      have live : st.dataNull = false := by simp_all
      exact ih (inv.batch (holds.resolve_left (by simp [live])) running resolved batch) rest

end BatchInvariant

theorem Consistent.batchInvariant : BatchInvariant c fuel Consistent where
  step holds h := by
    obtain ⟨T, queue, next⟩ := Consistent.completeAsync holds h
    rwa [queue, ← List.append_assoc]
  keepLive holds errors marks := holds.keepLive errors marks

/-- The root selections leave the tree consistent with the fields they queued. -/
theorem Consistent.start {host : σ} {st : ExecState σ} {fs : List (String × ResponseValue)}
    {E M T} (added : Added { host } st E M T) (under : Under [] (.object fs) E M T) :
    Consistent (.object fs) st T where
  root := by simp
  errors e member := by
    obtain ⟨rel, path, nulled⟩ := under.errors e (by simpa [added.errors_eq] using member)
    simpa [path] using nulled
  marks m member := by
    obtain ⟨rel, rfl, nulled⟩ := under.marks m (by simpa [added.marks_eq] using member)
    simpa using nulled
  queued t member := by
    obtain ⟨rel, path, placed⟩ := under.tasks t member
    rcases placed with pending | ⟨m, marked, below⟩ | ⟨-, absurd⟩
    · exact .inr (by simpa [path] using pending)
    · exact .inl (isNullified_of_mark (by simpa [added.marks_eq] using marked) below)
    · cases absurd
  placeholders p pending := by simpa using under.placeholders p pending
  distinct := under.distinct
  bounded := under.bounded

end Run

end GraphWeave.Exec

namespace GraphWeave.Schema

open Exec ResponseValue

variable {σ : Type}

/-- What a run of an operation within a budget does: it runs out of the budget and leaves the host
as it was; or its root selections make the data null, and it answers with their errors; or it
runs the batches from the tree of the root entries, and answers with the tree unless the data
root became null, and with the errors so far. -/
theorem runOperationWithin_eq (budget : Nat) (s : Schema) (runtime : Runtime σ) (doc : Document)
    (op : Operation) (rootType : NamedType) (vars : List (String × Value)) (root : Resolved)
    (host : σ) :
    s.runOperationWithin budget runtime doc op rootType vars root host = (none, host) ∨
    (∃ st₁, (executeSelections ⟨runtime, s, doc, op, vars⟩ budget rootType op.selections root
        [] []).run { host } = some (none, st₁) ∧
      s.runOperationWithin budget runtime doc op rootType vars root host =
        (some ⟨none, st₁.errors.toList⟩, st₁.host)) ∨
    ∃ fs st₁ tree st, (executeSelections ⟨runtime, s, doc, op, vars⟩ budget rootType op.selections
        root [] []).run { host } = some (some fs, st₁) ∧
      (Exec.runBatches ⟨runtime, s, doc, op, vars⟩ budget budget (.object fs)).run st₁ =
        some (tree, st) ∧
      s.runOperationWithin budget runtime doc op rootType vars root host =
        (some ⟨if st.dataNull then none else some tree, st.errors.toList⟩, st.host) := by
  unfold runOperationWithin
  dsimp only
  split
  case h_2 => exact .inl rfl
  case h_1 data st finished =>
    right
    simp only [run_bind_eq_some] at finished
    obtain ⟨r, st₁, selected, finished⟩ := finished
    cases r with
    | none =>
      simp only [run_bind_eq_some, run_pure_eq_some] at finished
      obtain ⟨⟨⟩, st₂, marked, rfl, rfl⟩ := finished
      have same : st₂ = { st₁ with dataNull := true } := by simpa [eq_comm] using marked
      subst same
      exact .inl ⟨st₁, selected, rfl⟩
    | some fs =>
      simp only [run_bind_eq_some] at finished
      obtain ⟨tree, st₂, batches, st₃, st₄, got, finished⟩ := finished
      simp [get, getThe, MonadStateOf.get] at got
      obtain ⟨rfl, rfl⟩ := got
      refine .inr ⟨fs, st₁, tree, st₂, selected, batches, ?_⟩
      split at finished <;>
      · rename_i null
        simp only [run_pure_eq_some] at finished
        obtain ⟨rfl, rfl⟩ := finished
        simp [null]

/-- A run of an operation that ends with data ran the root selections to entries, then the
batches from the tree of those entries, and did not make the data root null. -/
theorem runOperationWithin_cases {budget : Nat} {s : Schema} {runtime : Runtime σ}
    {doc : Document} {op : Operation} {rootType : NamedType} {vars : List (String × Value)}
    {root : Resolved} {host host' : σ} {result : ExecutionResult} {d : ResponseValue}
    (h : s.runOperationWithin budget runtime doc op rootType vars root host = (some result, host'))
    (data : result.data = some d) :
    ∃ fs st₁ st, (executeSelections ⟨runtime, s, doc, op, vars⟩ budget rootType op.selections root
        [] []).run { host } = some (some fs, st₁) ∧
      (Exec.runBatches ⟨runtime, s, doc, op, vars⟩ budget budget (.object fs)).run st₁ =
        some (d, st) ∧ st.dataNull = false ∧ result.errors = st.errors.toList := by
  rcases runOperationWithin_eq budget s runtime doc op rootType vars root host with
    ran | ⟨st₁, -, ran⟩ | ⟨fs, st₁, tree, st, selected, batches, ran⟩
  · rw [ran] at h
    cases h
  · rw [ran] at h
    cases h
    cases data
  · rw [ran] at h
    cases h
    cases null : st.dataNull with
    | true => simp [null] at data
    | false =>
      simp only [null, Bool.false_eq_true, if_false, Option.some.injEq] at data
      subst data
      exact ⟨fs, st₁, st, selected, batches, null, rfl⟩

theorem runOperationWithin_consistent {budget : Nat} {s : Schema} {runtime : Runtime σ}
    {doc : Document} {op : Operation} {rootType : NamedType} {vars : List (String × Value)}
    {root : Resolved} {host host' : σ} {result : ExecutionResult} {d : ResponseValue}
    (h : s.runOperationWithin budget runtime doc op rootType vars root host = (some result, host'))
    (data : result.data = some d) :
    ∃ st : ExecState σ, result.errors = st.errors.toList ∧ Consistent d st [] := by
  obtain ⟨fs, st₁, st, selected, batches, live, errors⟩ := runOperationWithin_cases h data
  obtain ⟨E, M, T, added, under⟩ :=
    ((sound _ budget).selections _ _ _ _ _ _ _ _ selected).under (List.prefix_refl _)
  have queue : st₁.queue.toList = T := by simpa using added.queue_eq
  rcases Consistent.batchInvariant.runBatches budget (.inr (queue ▸ Consistent.start added under))
    batches with null | ⟨done, -⟩
  · simp [null] at live
  · exact ⟨st, errors, done⟩

theorem runOperation_finished {s : Schema} {runtime : Runtime σ} {doc : Document}
    {op : Operation} {rootType : NamedType} {vars : List (String × Value)} {root : Resolved}
    {host : σ} {d : ResponseValue}
    (data : (s.runOperation runtime doc op rootType vars root host).1.data = some d) :
    ∃ host', s.runOperationWithin executionBudget runtime doc op rootType vars root host =
      (some (s.runOperation runtime doc op rootType vars root host).1, host') := by
  unfold runOperation at data ⊢
  cases h : s.runOperationWithin executionBudget runtime doc op rootType vars root host with
  | mk r host' =>
  cases r with
  | none => simp [h, bind, StateT.bind, pure, StateT.pure, ExecutionResult.failure] at data
  | some result =>
    simp only [h, bind, StateT.bind, pure, StateT.pure]
    exact ⟨host', rfl⟩

theorem runOperation_consistent {s : Schema} {runtime : Runtime σ} {doc : Document}
    {op : Operation} {rootType : NamedType} {vars : List (String × Value)} {root : Resolved}
    {host : σ} {d : ResponseValue}
    (data : (s.runOperation runtime doc op rootType vars root host).1.data = some d) :
    ∃ st : ExecState σ,
      (s.runOperation runtime doc op rootType vars root host).1.errors = st.errors.toList ∧
        Consistent d st [] := by
  obtain ⟨host', finished⟩ := runOperation_finished data
  exact runOperationWithin_consistent finished data

/-- The root type operations of a kind run on; subscriptions have none. -/
def RootTypeOf (s : Schema) : OperationKind → NamedType → Prop
  | .query, t => s.queryType? = some t
  | .mutation, t => s.mutationType? = some t
  | .subscription, _ => False

/-- A request with data ran the operation it names, with its coerced variables, on the root type
of the operation's kind. -/
theorem execute_eq_runOperation {s : Schema} {runtime : Runtime σ} {doc : Document}
    {operationName : String} {given : List (String × Value)} {root : Resolved} {host : σ}
    {d : ResponseValue} (data : (s.execute runtime doc operationName given root host).1.data = some d) :
    ∃ op rootType vars, doc.operation? operationName = some op ∧
      s.coerceVariables given op.variableDefinitions = .ok vars ∧ s.RootTypeOf op.kind rootType ∧
      s.execute runtime doc operationName given root host =
        s.runOperation runtime doc op rootType vars root host := by
  unfold execute at data ⊢
  cases found : doc.operation? operationName with
  | none => simp [found, pure, StateT.pure, ExecutionResult.failure] at data
  | some op =>
  cases coerced : s.coerceVariables given op.variableDefinitions with
  | error e => simp [found, coerced, pure, StateT.pure, ExecutionResult.failure] at data
  | ok vars =>
  cases kind : op.kind with
  | subscription => simp [found, coerced, kind, pure, StateT.pure, ExecutionResult.failure] at data
  | query =>
    cases rooted : s.queryType? with
    | none => simp [found, coerced, kind, rooted, pure, StateT.pure, ExecutionResult.failure] at data
    | some rootType => exact ⟨op, rootType, vars, rfl, coerced, by simp [RootTypeOf, kind, rooted],
        by simp [coerced, kind]⟩
  | mutation =>
    cases rooted : s.mutationType? with
    | none => simp [found, coerced, kind, rooted, pure, StateT.pure, ExecutionResult.failure] at data
    | some rootType => exact ⟨op, rootType, vars, rfl, coerced, by simp [RootTypeOf, kind, rooted],
        by simp [coerced, kind]⟩

theorem execute_consistent {s : Schema} {runtime : Runtime σ} {doc : Document}
    {operationName : String} {given : List (String × Value)} {root : Resolved} {host : σ}
    {d : ResponseValue} (data : (s.execute runtime doc operationName given root host).1.data = some d) :
    ∃ st : ExecState σ,
      (s.execute runtime doc operationName given root host).1.errors = st.errors.toList ∧
        Consistent d st [] := by
  obtain ⟨op, rootType, vars, -, -, -, ran⟩ := execute_eq_runOperation data
  rw [ran] at data ⊢
  exact runOperation_consistent data

end GraphWeave.Schema
