import GraphWeave.Proofs.Execution.Semantics
import GraphWeave.Proofs.Execution.Tree

/-! Where a completion leaves its traces.

A completion at a path records errors, marks nulled subtrees and queues fields for a later batch,
all at that path or below it. `Added` says what a run appended to the state; `Under` says where
it lies relative to the value the completion gave: every error and mark at a position of the
value that is nulled, every queued field at a placeholder of the value or below a mark, every
placeholder with its queued field, and no two queued fields at one path. The main statement,
`ValueRun.under` and its siblings, is proved by induction over the completion rules. -/

namespace GraphWeave

/-- The value a selection set stands for: its fields, or null when a non-null field failed. -/
def ResponseValue.ofFields : Option (List (String × ResponseValue)) → ResponseValue
  | some fs => .object fs
  | none => .null

/-- The value a list completion stands for: its items, or null when a non-null item failed. -/
def ResponseValue.ofItems : Option (List ResponseValue) → ResponseValue
  | some vs => .list vs
  | none => .null

/-- The value a field stands for in its object: a placeholder while it is queued. -/
def FieldOutcome.value : FieldOutcome → ResponseValue
  | .done v => v
  | .pending => .pending

/-- A queued field's boundary lies on its path, strictly above it when the field is non-null. -/
def AsyncTask.Bounded (t : AsyncTask) : Prop :=
  t.boundary <+: t.task.path ∧ (t.type.isNonNull = true → t.boundary ≠ t.task.path)

/-! Field groups collected from a selection set have distinct response keys. -/

theorem FieldGroup.keys_add (groups : List FieldGroup) (key : String) (f : Field) :
    (FieldGroup.add groups key f).map (·.key) =
      if groups.any (·.key == key) then groups.map (·.key) else groups.map (·.key) ++ [key] := by
  unfold FieldGroup.add
  split
  · simp only [List.map_map]
    congr 1
    funext g
    simp only [Function.comp]
    split <;> rfl
  · simp_all

theorem FieldGroup.add_nodup {groups : List FieldGroup} (key : String) (f : Field)
    (distinct : (groups.map (·.key)).Nodup) : ((FieldGroup.add groups key f).map (·.key)).Nodup := by
  rw [FieldGroup.keys_add]
  split
  · exact distinct
  · rename_i absent
    rw [List.nodup_append]
    refine ⟨distinct, by simp, ?_⟩
    intro k member k' same
    simp only [List.mem_singleton] at same
    subst same
    obtain ⟨g, mem, rfl⟩ := List.mem_map.mp member
    intro same
    exact absent (List.any_eq_true.mpr ⟨g, mem, by simp [same]⟩)

/-- Collecting follows the selections, fragments entered with less fuel; every field joins the
group of its key or opens one. -/
theorem CollectContext.collectInto_nodup (c : CollectContext) (object : String) (fuel : Nat)
    (acc : List FieldGroup × List String) (selections : List Selection)
    (distinct : (acc.1.map (·.key)).Nodup) :
    ((c.collectInto object fuel acc selections).1.map (·.key)).Nodup := by
  match selections with
  | [] => rw [collectInto]; exact distinct
  | .field f :: rest =>
    rw [collectInto]
    apply c.collectInto_nodup object fuel _ rest
    split
    · exact FieldGroup.add_nodup _ _ distinct
    · exact distinct
  | .inline condition directives inner :: rest =>
    rw [collectInto]
    apply c.collectInto_nodup object fuel _ rest
    split
    · exact c.collectInto_nodup object fuel acc inner distinct
    · exact distinct
  | .spread name directives :: rest =>
    rw [collectInto]
    apply c.collectInto_nodup object fuel _ rest
    split
    · exact distinct
    · split
      · split
        · exact c.collectInto_nodup object _ _ _ distinct
        · exact distinct
      · exact distinct
termination_by (fuel, sizeOf selections)

theorem CollectContext.collect_nodup (c : CollectContext) (object : String)
    (selections : List Selection) : ((c.collect object selections).map (·.key)).Nodup :=
  c.collectInto_nodup object _ _ selections (by simp)

namespace Exec

variable {σ : Type}

/-- What a run appended to the state: errors, marked paths and queued fields after those that
were there; the flag of a null data root is left alone. -/
structure Added (st st' : ExecState σ) (E : List ResponseError) (M : List Path)
    (T : List AsyncTask) : Prop where
  errors_eq : st'.errors.toList = st.errors.toList ++ E
  marks_eq : st'.nullified = st.nullified ++ M
  queue_eq : st'.queue.toList = st.queue.toList ++ T
  dataNull_eq : st'.dataNull = st.dataNull

namespace Added

theorem refl (st : ExecState σ) : Added st st [] [] [] :=
  ⟨by simp, by simp, by simp, rfl⟩

theorem trans {st₁ st₂ st₃ : ExecState σ} {E₁ E₂ M₁ M₂ T₁ T₂} (first : Added st₁ st₂ E₁ M₁ T₁)
    (second : Added st₂ st₃ E₂ M₂ T₂) : Added st₁ st₃ (E₁ ++ E₂) (M₁ ++ M₂) (T₁ ++ T₂) where
  errors_eq := by rw [second.errors_eq, first.errors_eq, List.append_assoc]
  marks_eq := by rw [second.marks_eq, first.marks_eq, List.append_assoc]
  queue_eq := by rw [second.queue_eq, first.queue_eq, List.append_assoc]
  dataNull_eq := second.dataNull_eq.trans first.dataNull_eq

end Added

/-! What each step of the executor appends. -/

section Steps

variable {st st' : ExecState σ} {u : Unit} {path : Path} {fields : List Field}

theorem added_addError {message : String} (h : (addError message path fields).run st = some (u, st')) :
    ∃ e : ResponseError, e.path = path ∧ Added st st' [e] [] [] := by
  have same : st' = { st with errors := st.errors.push ⟨message, locationsOf fields, path, []⟩ } := by
    simpa [addError, eq_comm] using h
  subst same
  exact ⟨⟨message, locationsOf fields, path, []⟩, rfl, by simp, by simp, by simp, rfl⟩

theorem added_addFieldError {e : FieldError} (h : (addFieldError e path fields).run st = some (u, st')) :
    ∃ err : ResponseError, err.path = path ∧ Added st st' [err] [] [] := by
  have same : st' =
      { st with errors := st.errors.push ⟨e.message, locationsOf fields, path, e.extensions⟩ } := by
    simpa [addFieldError, eq_comm] using h
  subst same
  exact ⟨⟨e.message, locationsOf fields, path, e.extensions⟩, rfl, by simp, by simp, by simp, rfl⟩

theorem added_markNullified (h : (markNullified path).run st = some (u, st')) :
    ∃ M, (∀ m ∈ M, m = path) ∧ (path = [] ∨ path ∈ M) ∧ Added st st' [] M [] := by
  cases path with
  | nil =>
    have same : st' = st := by simpa [markNullified, eq_comm] using h
    subst same
    exact ⟨[], by simp, .inl rfl, Added.refl _⟩
  | cons s rest =>
    have same : st' = { st with nullified := st.nullified ++ [s :: rest] } := by
      simpa [markNullified, eq_comm] using h
    subst same
    exact ⟨[s :: rest], by simp, .inr (by simp), by simp, by simp, by simp, rfl⟩

theorem added_enqueue {t : AsyncTask} (h : (enqueue t).run st = some (u, st')) :
    Added st st' [] [] [t] := by
  have same : st' = { st with queue := st.queue.push t } := by simpa [enqueue, eq_comm] using h
  subst same
  exact ⟨by simp, by simp, by simp, rfl⟩

theorem added_resolve {c : ExecContext σ} {task : ResolveTask} {r : Except FieldError Resolved}
    (h : (resolve c task).run st = some (r, st')) : Added st st' [] [] [] := by
  simp only [resolve, StateT.run] at h
  obtain ⟨-, rfl⟩ := h
  exact ⟨by simp, by simp, by simp, rfl⟩

theorem added_resolveBatch {c : ExecContext σ} {tasks : List ResolveTask}
    {rs : List (Except FieldError Resolved)} (h : (resolveBatch c tasks).run st = some (rs, st')) :
    Added st st' [] [] [] := by
  simp only [resolveBatch, StateT.run] at h
  obtain ⟨-, rfl⟩ := h
  exact ⟨by simp, by simp, by simp, rfl⟩

theorem settle_cases {result r : Resolved} (h : (settle path fields result).run st = some (r, st')) :
    (∃ e : FieldError, result = .itemError e ∧ r = .null ∧
      ∃ err : ResponseError, err.path = path ∧ Added st st' [err] [] []) ∨
    ((∀ e : FieldError, result ≠ .itemError e) ∧ r = result ∧ st' = st) := by
  cases result with
  | itemError e =>
    simp only [settle, run_bind_eq_some, run_pure_eq_some] at h
    obtain ⟨⟨⟩, st₁, added, rfl, rfl⟩ := h
    exact .inl ⟨e, rfl, rfl, added_addFieldError added⟩
  | null | single _ | list _ =>
    simp only [settle, run_pure_eq_some] at h
    obtain ⟨rfl, rfl⟩ := h
    exact .inr ⟨by simp, rfl, rfl⟩

theorem settle_present {result r : Resolved} (h : (settle path fields result).run st = some (r, st'))
    (present : r.isNull = false) : r = result ∧ st' = st := by
  rcases settle_cases h with ⟨_, _, rfl, _⟩ | ⟨_, same, rfl⟩
  · simp [Resolved.isNull] at present
  · exact ⟨same, rfl⟩

theorem added_settle {result r : Resolved} (h : (settle path fields result).run st = some (r, st')) :
    ∃ E, (∀ e ∈ E, e.path = path) ∧ Added st st' E [] [] := by
  rcases settle_cases h with ⟨_, _, _, err, at_path, added⟩ | ⟨_, _, rfl⟩
  · exact ⟨[err], by simpa using at_path, added⟩
  · exact ⟨[], by simp, Added.refl _⟩

/-- Reporting a null records at most one error, at the reported position, and leaves one there. -/
theorem added_reportNull (h : (reportNull path fields).run st = some (u, st')) :
    ∃ E, (∀ e ∈ E, e.path = path) ∧ Added st st' E [] [] ∧
      ∃ e ∈ st'.errors.toList, e.path = path := by
  unfold reportNull at h
  rw [run_bind_eq_some] at h
  obtain ⟨recorded, st₁, asked, h⟩ := h
  simp only [hasErrorAt, run_bind_eq_some, run_pure_eq_some] at asked
  obtain ⟨_, _, ⟨rfl, rfl⟩, rfl, rfl⟩ := asked
  cases found : st.errors.any fun e => e.path == path with
  | true =>
    simp only [found, Bool.not_true, Bool.false_eq_true, if_false, run_pure_eq_some] at h
    obtain ⟨-, rfl⟩ := h
    obtain ⟨e, member, same⟩ := Array.any_eq_true'.mp found
    exact ⟨[], by simp, Added.refl _, e, by simpa using member, by simpa using same⟩
  | false =>
    simp only [found, Bool.not_false, if_true] at h
    obtain ⟨err, at_path, added⟩ := added_addError h
    refine ⟨[err], by simpa using at_path, added, err, ?_, at_path⟩
    simp [added.errors_eq]

end Steps

/-! Where the additions of a completion lie. -/

/-- Where the additions of a completion at `path` that gave `v` lie: every error and mark at a
position of `v` that is nulled; every queued field at a placeholder of `v`, below a mark, or
anywhere when the data root itself came out null; every placeholder with its queued field; no
two queued fields at one path, and each with its boundary on its path. -/
structure Under (path : Path) (v : ResponseValue) (E : List ResponseError) (M : List Path)
    (T : List AsyncTask) : Prop where
  errors : ∀ e ∈ E, ∃ rel, e.path = path ++ rel ∧ v.nulledAt rel
  marks : ∀ m ∈ M, ∃ rel, m = path ++ rel ∧ v.nulledAt rel
  tasks : ∀ t ∈ T, ∃ rel, t.task.path = path ++ rel ∧
    (v.at? rel = some .pending ∨ (∃ m ∈ M, m <+: t.task.path) ∨ (path = [] ∧ v = .null))
  placeholders : ∀ rel, v.at? rel = some .pending → ∃ t ∈ T, t.task.path = path ++ rel
  distinct : (T.map (·.task.path)).Nodup
  bounded : ∀ t ∈ T, t.Bounded

/-- The same for field groups run after the entries `acc`: the result extends `acc` by entries
of the groups' keys, and positions are those under the groups' keys. -/
structure GroupsUnder (path : Path) (keys : List String) (acc : List (String × ResponseValue))
    (r : Option (List (String × ResponseValue))) (E : List ResponseError) (M : List Path)
    (T : List AsyncTask) : Prop where
  grows_acc : ∀ fs, r = some fs → ∃ more, fs = acc ++ more ∧ ∀ k ∈ more.map Prod.fst, k ∈ keys
  errors : ∀ e ∈ E, ∃ rel, e.path = path ++ rel ∧ (ResponseValue.ofFields r).nulledAt rel
  marks : ∀ m ∈ M, ∃ rel, m = path ++ rel ∧ (ResponseValue.ofFields r).nulledAt rel
  tasks : ∀ t ∈ T, ∃ k ∈ keys, ∃ rel, t.task.path = path ++ .key k :: rel ∧
    ((ResponseValue.ofFields r).at? (.key k :: rel) = some .pending ∨
      (∃ m ∈ M, m <+: t.task.path) ∨ (path = [] ∧ r = none))
  placeholders : ∀ k ∈ keys, ∀ rel,
    (ResponseValue.ofFields r).at? (.key k :: rel) = some .pending →
      ∃ t ∈ T, t.task.path = path ++ .key k :: rel
  distinct : (T.map (·.task.path)).Nodup
  bounded : ∀ t ∈ T, t.Bounded
  nulled : r = none → path = [] ∨ path ∈ M

/-- The same for list items completed from `index` on after the items `acc`. -/
structure ItemsUnder (path : Path) (index : Nat) (acc : List ResponseValue)
    (r : Option (List ResponseValue)) (E : List ResponseError) (M : List Path)
    (T : List AsyncTask) : Prop where
  grows_acc : ∀ vs, r = some vs → ∃ more, vs = acc ++ more
  errors : ∀ e ∈ E, ∃ rel, e.path = path ++ rel ∧ (ResponseValue.ofItems r).nulledAt rel
  marks : ∀ m ∈ M, ∃ rel, m = path ++ rel ∧ (ResponseValue.ofItems r).nulledAt rel
  tasks : ∀ t ∈ T, ∃ i, index ≤ i ∧ ∃ rel, t.task.path = path ++ .index i :: rel ∧
    ((ResponseValue.ofItems r).at? (.index i :: rel) = some .pending ∨
      (∃ m ∈ M, m <+: t.task.path) ∨ (path = [] ∧ r = none))
  placeholders : ∀ i, index ≤ i → ∀ rel,
    (ResponseValue.ofItems r).at? (.index i :: rel) = some .pending →
      ∃ t ∈ T, t.task.path = path ++ .index i :: rel
  distinct : (T.map (·.task.path)).Nodup
  bounded : ∀ t ∈ T, t.Bounded
  nulled : r = none → path = [] ∨ path ∈ M

/-! Groups, one after another. -/

section Groups

variable {path : Path} {keys : List String} {acc : List (String × ResponseValue)}
  {r : Option (List (String × ResponseValue))} {E E₁ E₂ : List ResponseError}
  {M M₁ M₂ : List Path} {T T₁ T₂ : List AsyncTask} {k : String}

theorem ofFields_key {w : ResponseValue} (new : k ∉ acc.map Prod.fst)
    (grows : ∀ fs, r = some fs → ∃ more, fs = (acc ++ [(k, w)]) ++ more) (rel : Path) :
    ((ResponseValue.ofFields r).at? (.key k :: rel) = w.at? rel ∨ r = none) ∧
      ((ResponseValue.ofFields r).nulledAt (.key k :: rel) = w.nulledAt rel ∨ r = none) := by
  cases r with
  | none => simp
  | some fs =>
    obtain ⟨more, rfl⟩ := grows _ rfl
    have found : (acc ++ (k, w) :: more).lookup k = some w :=
      ResponseValue.lookup_append_cons_of_not_mem new
    simp [ResponseValue.ofFields, found]

theorem ofFields_key_absent (fresh : k ∉ keys) (new : k ∉ acc.map Prod.fst)
    (grows : ∀ fs, r = some fs → ∃ more, fs = acc ++ more ∧ ∀ k ∈ more.map Prod.fst, k ∈ keys)
    (rel : Path) : (ResponseValue.ofFields r).at? (.key k :: rel) = none ∧
      (ResponseValue.ofFields r).nulledAt (.key k :: rel) := by
  cases r with
  | none => simp [ResponseValue.ofFields]
  | some fs =>
    obtain ⟨more, rfl, within⟩ := grows _ rfl
    have absent : k ∉ (acc ++ more).map Prod.fst := by
      simp only [List.map_append, List.mem_append, not_or]
      exact ⟨new, fun member => fresh (within k member)⟩
    simp [ResponseValue.ofFields, ResponseValue.lookup_eq_none_of_not_mem absent]

theorem GroupsUnder.nil : GroupsUnder path [] acc (some acc) [] [] [] where
  grows_acc := by simp
  errors := by simp
  marks := by simp
  tasks := by simp
  placeholders := by simp
  distinct := by simp
  bounded := by simp
  nulled := by simp

/-- A group whose entry is placed: its additions lie under its key. -/
theorem GroupsUnder.cons_entry {w : ResponseValue} (field : Under (path ++ [.key k]) w E₁ M₁ T₁)
    (rest : GroupsUnder path keys (acc ++ [(k, w)]) r E₂ M₂ T₂) (fresh : k ∉ keys)
    (new : k ∉ acc.map Prod.fst) :
    GroupsUnder path (k :: keys) acc r (E₁ ++ E₂) (M₁ ++ M₂) (T₁ ++ T₂) := by
  have grows : ∀ fs, r = some fs → ∃ more, fs = (acc ++ [(k, w)]) ++ more := fun fs same =>
    (rest.grows_acc fs same).imp fun _ h => h.1
  have reads := ofFields_key new grows
  constructor
  · intro fs same
    obtain ⟨more, rfl, within⟩ := rest.grows_acc fs same
    exact ⟨(k, w) :: more, by simp, by simpa using fun k' member => Or.inr (within k' member)⟩
  · intro e member
    rcases List.mem_append.mp member with member | member
    · obtain ⟨rel, at_path, nulled⟩ := field.errors e member
      refine ⟨.key k :: rel, by simp [at_path], ?_⟩
      rcases (reads rel).2 with same | rfl
      · rw [same]; exact nulled
      · simp [ResponseValue.ofFields]
    · exact rest.errors e member
  · intro m member
    rcases List.mem_append.mp member with member | member
    · obtain ⟨rel, at_path, nulled⟩ := field.marks m member
      refine ⟨.key k :: rel, by simp [at_path], ?_⟩
      rcases (reads rel).2 with same | rfl
      · rw [same]; exact nulled
      · simp [ResponseValue.ofFields]
    · exact rest.marks m member
  · intro t member
    rcases List.mem_append.mp member with member | member
    · obtain ⟨rel, at_path, placed⟩ := field.tasks t member
      refine ⟨k, List.mem_cons_self, rel, by simp [at_path], ?_⟩
      rcases placed with placeholder | ⟨m, marked, below⟩ | ⟨root, -⟩
      · rcases (reads rel).1 with same | none
        · exact .inl (same.trans placeholder)
        · rcases rest.nulled none with top | marked
          · exact .inr (.inr ⟨top, none⟩)
          · exact .inr (.inl ⟨path, List.mem_append_right _ marked, by simp [at_path]⟩)
      · exact .inr (.inl ⟨m, List.mem_append_left _ marked, below⟩)
      · simp at root
    · obtain ⟨k', within, rel, at_path, placed⟩ := rest.tasks t member
      refine ⟨k', List.mem_cons_of_mem _ within, rel, at_path, ?_⟩
      rcases placed with placeholder | ⟨m, marked, below⟩ | root
      · exact .inl placeholder
      · exact .inr (.inl ⟨m, List.mem_append_right _ marked, below⟩)
      · exact .inr (.inr root)
  · intro k' within rel placeholder
    by_cases same : k' = k
    · subst same
      rcases (reads rel).1 with same | none
      · obtain ⟨t, member, at_path⟩ := field.placeholders rel (same.symm.trans placeholder)
        exact ⟨t, List.mem_append_left _ member, by simp [at_path]⟩
      · subst none
        simp [ResponseValue.ofFields] at placeholder
    · obtain ⟨t, member, at_path⟩ :=
        rest.placeholders k' (List.mem_of_ne_of_mem same within) rel placeholder
      exact ⟨t, List.mem_append_right _ member, at_path⟩
  · rw [List.map_append, List.nodup_append]
    refine ⟨field.distinct, rest.distinct, ?_⟩
    intro p₁ first p₂ second same
    obtain ⟨t₁, member₁, rfl⟩ := List.mem_map.mp first
    obtain ⟨t₂, member₂, rfl⟩ := List.mem_map.mp second
    obtain ⟨rel₁, at₁, -⟩ := field.tasks t₁ member₁
    obtain ⟨k₂, within, rel₂, at₂, -⟩ := rest.tasks t₂ member₂
    rw [at₁, at₂] at same
    simp only [List.append_assoc, List.singleton_append, List.append_cancel_left_eq,
      List.cons.injEq, PathSegment.key.injEq] at same
    exact fresh (same.1 ▸ within)
  · intro t member
    rcases List.mem_append.mp member with member | member
    · exact field.bounded t member
    · exact rest.bounded t member
  · intro none
    rcases rest.nulled none with top | marked
    · exact .inl top
    · exact .inr (List.mem_append_right _ marked)

/-- A non-null field that came out null ends the groups with no object, after marking it. -/
theorem GroupsUnder.cons_nulled (field : Under (path ++ [.key k]) .null E₁ M₁ T₁)
    (marked : ∀ m ∈ M₂, m = path) (nulled : path = [] ∨ path ∈ M₂) :
    GroupsUnder path (k :: keys) acc none E₁ (M₁ ++ M₂) T₁ where
  grows_acc := by simp
  errors e member := by
    obtain ⟨rel, at_path, -⟩ := field.errors e member
    exact ⟨.key k :: rel, by simp [at_path], by simp [ResponseValue.ofFields]⟩
  marks m member := by
    rcases List.mem_append.mp member with member | member
    · obtain ⟨rel, at_path, -⟩ := field.marks m member
      exact ⟨.key k :: rel, by simp [at_path], by simp [ResponseValue.ofFields]⟩
    · exact ⟨[], by simp [marked m member], by simp [ResponseValue.ofFields, ResponseValue.isNull]⟩
  tasks t member := by
    obtain ⟨rel, at_path, -⟩ := field.tasks t member
    refine ⟨k, List.mem_cons_self, rel, by simp [at_path], ?_⟩
    rcases nulled with top | marked
    · exact .inr (.inr ⟨top, rfl⟩)
    · exact .inr (.inl ⟨path, List.mem_append_right _ marked, by simp [at_path]⟩)
  placeholders k' _ rel placeholder := by simp [ResponseValue.ofFields] at placeholder
  distinct := field.distinct
  bounded := field.bounded
  nulled _ := nulled.imp_right (List.mem_append_right _)

/-- A group that adds no entry: its key is absent from the final object. -/
theorem GroupsUnder.cons_skip (rest : GroupsUnder path keys acc r E M T) (fresh : k ∉ keys)
    (new : k ∉ acc.map Prod.fst) : GroupsUnder path (k :: keys) acc r E M T where
  grows_acc fs same := by
    obtain ⟨more, rfl, within⟩ := rest.grows_acc fs same
    exact ⟨more, rfl, fun k' member => List.mem_cons_of_mem _ (within k' member)⟩
  errors := rest.errors
  marks := rest.marks
  tasks t member := by
    obtain ⟨k', within, rel, at_path, placed⟩ := rest.tasks t member
    exact ⟨k', List.mem_cons_of_mem _ within, rel, at_path, placed⟩
  placeholders k' within rel placeholder := by
    by_cases same : k' = k
    · subst same
      simp [(ofFields_key_absent fresh new rest.grows_acc rel).1] at placeholder
    · exact rest.placeholders k' (List.mem_of_ne_of_mem same within) rel placeholder
  distinct := rest.distinct
  bounded := rest.bounded
  nulled := rest.nulled

theorem GroupsUnder.cons_error {e : ResponseError} (at_key : e.path = path ++ [.key k])
    (rest : GroupsUnder path keys acc r E M T) (fresh : k ∉ keys) (new : k ∉ acc.map Prod.fst) :
    GroupsUnder path (k :: keys) acc r (e :: E) M T := by
  have skipped := rest.cons_skip fresh new
  refine { skipped with errors := ?_ }
  intro e' member
  rcases List.mem_cons.mp member with rfl | member
  · exact ⟨[.key k], at_key, (ofFields_key_absent fresh new rest.grows_acc []).2⟩
  · exact rest.errors e' member

theorem fresh_after {groups : List FieldGroup} {g : FieldGroup} {w : ResponseValue}
    (absent : g.key ∉ groups.map (·.key)) (fresh : ∀ g' ∈ g :: groups, g'.key ∉ acc.map Prod.fst) :
    ∀ g' ∈ groups, g'.key ∉ (acc ++ [(g.key, w)]).map Prod.fst := by
  intro g' member
  simp only [List.map_append, List.map_cons, List.map_nil, List.mem_append, List.mem_singleton,
    not_or]
  refine ⟨fresh g' (List.mem_cons_of_mem _ member), ?_⟩
  intro same
  exact absent (same ▸ List.mem_map_of_mem member)

/-- Groups run on an object from no entries: where their additions lie in the object. -/
theorem GroupsUnder.toUnder (h : GroupsUnder path keys [] r E M T) :
    Under path (ResponseValue.ofFields r) E M T where
  errors := h.errors
  marks := h.marks
  tasks t member := by
    obtain ⟨k, -, rel, at_path, placed⟩ := h.tasks t member
    refine ⟨.key k :: rel, at_path, ?_⟩
    rcases placed with placeholder | marked | ⟨top, rfl⟩
    · exact .inl placeholder
    · exact .inr (.inl marked)
    · exact .inr (.inr ⟨top, rfl⟩)
  placeholders rel placeholder := by
    cases r with
    | none => cases rel <;> simp [ResponseValue.ofFields] at placeholder
    | some fs =>
      obtain ⟨more, same, within⟩ := h.grows_acc fs rfl
      rw [List.nil_append] at same
      cases rel with
      | nil => simp [ResponseValue.ofFields] at placeholder
      | cons s rel =>
        cases s with
        | index _ => simp [ResponseValue.ofFields, ResponseValue.at?] at placeholder
        | key k =>
          have reads : (fs.lookup k).bind (·.at? rel) = some ResponseValue.pending := placeholder
          obtain ⟨w, found, -⟩ := Option.bind_eq_some_iff.mp reads
          have key : k ∈ more.map Prod.fst := by
            refine Classical.byContradiction fun absent => ?_
            rw [same] at found
            simp [ResponseValue.lookup_eq_none_of_not_mem absent] at found
          exact h.placeholders k (within k key) rel placeholder
  distinct := h.distinct
  bounded := h.bounded

end Groups

/-! List items, one after another. -/

section Items

variable {path : Path} {index : Nat} {acc : List ResponseValue} {r : Option (List ResponseValue)}
  {E E₁ E₂ : List ResponseError} {M M₁ M₂ : List Path} {T T₁ T₂ : List AsyncTask}

theorem ofItems_index {w : ResponseValue} (len : acc.length = index)
    (grows : ∀ vs, r = some vs → ∃ more, vs = (acc ++ [w]) ++ more) (rel : Path) :
    ((ResponseValue.ofItems r).at? (.index index :: rel) = w.at? rel ∨ r = none) ∧
      ((ResponseValue.ofItems r).nulledAt (.index index :: rel) = w.nulledAt rel ∨ r = none) := by
  cases r with
  | none => simp
  | some vs =>
    obtain ⟨more, rfl⟩ := grows _ rfl
    have found : (acc ++ w :: more)[index]? = some w := by
      subst len
      simp
    simp [ResponseValue.ofItems, found]

theorem ItemsUnder.nil (len : acc.length = index) : ItemsUnder path index acc (some acc) [] [] [] where
  grows_acc := by simp
  errors := by simp
  marks := by simp
  tasks := by simp
  placeholders i above rel placeholder := by
    have beyond : acc[i]? = none := List.getElem?_eq_none (by omega)
    simp [ResponseValue.ofItems, beyond] at placeholder
  distinct := by simp
  bounded := by simp
  nulled := by simp

/-- An item that completed: its additions lie under its index. -/
theorem ItemsUnder.cons_entry {w : ResponseValue} (item : Under (path ++ [.index index]) w E₁ M₁ T₁)
    (rest : ItemsUnder path (index + 1) (acc ++ [w]) r E₂ M₂ T₂) (len : acc.length = index) :
    ItemsUnder path index acc r (E₁ ++ E₂) (M₁ ++ M₂) (T₁ ++ T₂) := by
  have reads := ofItems_index len rest.grows_acc
  constructor
  · intro vs same
    obtain ⟨more, rfl⟩ := rest.grows_acc vs same
    exact ⟨w :: more, by simp⟩
  · intro e member
    rcases List.mem_append.mp member with member | member
    · obtain ⟨rel, at_path, nulled⟩ := item.errors e member
      refine ⟨.index index :: rel, by simp [at_path], ?_⟩
      rcases (reads rel).2 with same | rfl
      · rw [same]; exact nulled
      · simp [ResponseValue.ofItems]
    · exact rest.errors e member
  · intro m member
    rcases List.mem_append.mp member with member | member
    · obtain ⟨rel, at_path, nulled⟩ := item.marks m member
      refine ⟨.index index :: rel, by simp [at_path], ?_⟩
      rcases (reads rel).2 with same | rfl
      · rw [same]; exact nulled
      · simp [ResponseValue.ofItems]
    · exact rest.marks m member
  · intro t member
    rcases List.mem_append.mp member with member | member
    · obtain ⟨rel, at_path, placed⟩ := item.tasks t member
      refine ⟨index, Nat.le_refl _, rel, by simp [at_path], ?_⟩
      rcases placed with placeholder | ⟨m, marked, below⟩ | ⟨root, -⟩
      · rcases (reads rel).1 with same | none
        · exact .inl (same.trans placeholder)
        · rcases rest.nulled none with top | marked
          · exact .inr (.inr ⟨top, none⟩)
          · exact .inr (.inl ⟨path, List.mem_append_right _ marked, by simp [at_path]⟩)
      · exact .inr (.inl ⟨m, List.mem_append_left _ marked, below⟩)
      · simp at root
    · obtain ⟨i, above, rel, at_path, placed⟩ := rest.tasks t member
      refine ⟨i, by omega, rel, at_path, ?_⟩
      rcases placed with placeholder | ⟨m, marked, below⟩ | root
      · exact .inl placeholder
      · exact .inr (.inl ⟨m, List.mem_append_right _ marked, below⟩)
      · exact .inr (.inr root)
  · intro i above rel placeholder
    by_cases same : i = index
    · subst same
      rcases (reads rel).1 with same | none
      · obtain ⟨t, member, at_path⟩ := item.placeholders rel (same.symm.trans placeholder)
        exact ⟨t, List.mem_append_left _ member, by simp [at_path]⟩
      · subst none
        simp [ResponseValue.ofItems] at placeholder
    · obtain ⟨t, member, at_path⟩ := rest.placeholders i (by omega) rel placeholder
      exact ⟨t, List.mem_append_right _ member, at_path⟩
  · rw [List.map_append, List.nodup_append]
    refine ⟨item.distinct, rest.distinct, ?_⟩
    intro p₁ first p₂ second same
    obtain ⟨t₁, member₁, rfl⟩ := List.mem_map.mp first
    obtain ⟨t₂, member₂, rfl⟩ := List.mem_map.mp second
    obtain ⟨rel₁, at₁, -⟩ := item.tasks t₁ member₁
    obtain ⟨i, above, rel₂, at₂, -⟩ := rest.tasks t₂ member₂
    rw [at₁, at₂] at same
    simp only [List.append_assoc, List.singleton_append, List.append_cancel_left_eq,
      List.cons.injEq, PathSegment.index.injEq] at same
    omega
  · intro t member
    rcases List.mem_append.mp member with member | member
    · exact item.bounded t member
    · exact rest.bounded t member
  · intro none
    rcases rest.nulled none with top | marked
    · exact .inl top
    · exact .inr (List.mem_append_right _ marked)

/-- A non-null item that came out null ends the list with no value, after marking it. -/
theorem ItemsUnder.cons_nulled (item : Under (path ++ [.index index]) .null E₁ M₁ T₁)
    (marked : ∀ m ∈ M₂, m = path) (nulled : path = [] ∨ path ∈ M₂) :
    ItemsUnder path index acc none E₁ (M₁ ++ M₂) T₁ where
  grows_acc := by simp
  errors e member := by
    obtain ⟨rel, at_path, -⟩ := item.errors e member
    exact ⟨.index index :: rel, by simp [at_path], by simp [ResponseValue.ofItems]⟩
  marks m member := by
    rcases List.mem_append.mp member with member | member
    · obtain ⟨rel, at_path, -⟩ := item.marks m member
      exact ⟨.index index :: rel, by simp [at_path], by simp [ResponseValue.ofItems]⟩
    · exact ⟨[], by simp [marked m member], by simp [ResponseValue.ofItems, ResponseValue.isNull]⟩
  tasks t member := by
    obtain ⟨rel, at_path, -⟩ := item.tasks t member
    refine ⟨index, Nat.le_refl _, rel, by simp [at_path], ?_⟩
    rcases nulled with top | marked
    · exact .inr (.inr ⟨top, rfl⟩)
    · exact .inr (.inl ⟨path, List.mem_append_right _ marked, by simp [at_path]⟩)
  placeholders i _ rel placeholder := by simp [ResponseValue.ofItems] at placeholder
  distinct := item.distinct
  bounded := item.bounded
  nulled _ := nulled.imp_right (List.mem_append_right _)

/-- Items completed from the first: where their additions lie in the list. -/
theorem ItemsUnder.toUnder (h : ItemsUnder path 0 [] r E M T) :
    Under path (ResponseValue.ofItems r) E M T where
  errors := h.errors
  marks := h.marks
  tasks t member := by
    obtain ⟨i, -, rel, at_path, placed⟩ := h.tasks t member
    refine ⟨.index i :: rel, at_path, ?_⟩
    rcases placed with placeholder | marked | ⟨top, rfl⟩
    · exact .inl placeholder
    · exact .inr (.inl marked)
    · exact .inr (.inr ⟨top, rfl⟩)
  placeholders rel placeholder := by
    match r, rel with
    | none, rel => cases rel <;> simp [ResponseValue.ofItems] at placeholder
    | some vs, [] => simp [ResponseValue.ofItems] at placeholder
    | some vs, .key _ :: _ => simp [ResponseValue.ofItems, ResponseValue.at?] at placeholder
    | some vs, .index i :: rel => exact h.placeholders i (Nat.zero_le i) rel placeholder
  distinct := h.distinct
  bounded := h.bounded

end Items

/-! Completions. -/

section Completions

variable {path : Path} {E : List ResponseError}

theorem Under.null_of_errors (at_path : ∀ e ∈ E, e.path = path) : Under path .null E [] [] where
  errors e member := ⟨[], by simp [at_path e member], by simp [ResponseValue.isNull]⟩
  marks := by simp
  tasks := by simp
  placeholders rel placeholder := by cases rel <;> simp at placeholder
  distinct := by simp
  bounded := by simp

theorem Under.leaf (j : Json) : Under path (.leaf j) [] [] [] where
  errors := by simp
  marks := by simp
  tasks := by simp
  placeholders rel placeholder := by cases rel <;> simp at placeholder
  distinct := by simp
  bounded := by simp

theorem Under.queued {t : AsyncTask} (at_path : t.task.path = path) (bounded : t.Bounded) :
    Under path .pending [] [] [t] where
  errors := by simp
  marks := by simp
  tasks t' member := by
    simp only [List.mem_singleton] at member
    subst member
    exact ⟨[], by simp [at_path], .inl (by simp)⟩
  placeholders rel placeholder := by
    cases rel with
    | nil => exact ⟨t, List.mem_singleton_self t, by simp [at_path]⟩
    | cons s rel => simp at placeholder
  distinct := by simp
  bounded t' member := by
    simp only [List.mem_singleton] at member
    exact member ▸ bounded

theorem completeNamed_eq_value {c : ExecContext σ} {name : String} {r : Resolved}
    {v : ResponseValue} (h : completeNamed c name r = .value v) :
    (c.runtime.serialize name r = .ok .null ∧ v = .null) ∨
      ∃ j, c.runtime.serialize name r = .ok j ∧ v = .leaf j := by
  unfold completeNamed at h
  repeat' split at h
  all_goals cases h <;> simp_all

theorem boundaryOf_above {type : TypeRef} {boundary : Path} (s : PathSegment)
    (bounded : boundary <+: path) : boundaryOf type boundary (path ++ [s]) <+: path ++ [s] := by
  unfold boundaryOf
  split
  · exact bounded.trans (List.prefix_append path [s])
  · exact List.prefix_refl _

theorem boundaryOf_ne {type : TypeRef} {boundary : Path} (s : PathSegment)
    (bounded : boundary <+: path) (nonNull : type.isNonNull = true) :
    boundaryOf type boundary (path ++ [s]) ≠ path ++ [s] := by
  simp only [boundaryOf, nonNull, if_true]
  intro same
  have := bounded.length_le
  rw [same, List.length_append, List.length_singleton] at this
  omega

variable {c : ExecContext σ}

omit path

mutual

theorem SelectionsRun.under {path object selections source boundary st r st'}
    (run : SelectionsRun c object selections source path boundary st r st')
    (bounded : boundary <+: path) :
    ∃ E M T, Added st st' E M T ∧ Under path (ResponseValue.ofFields r) E M T := by
  match run with
  | .collect groups =>
    obtain ⟨E, M, T, added, under⟩ :=
      groups.under bounded ((collectContext c).collect_nodup _ _) (by simp)
    exact ⟨E, M, T, added, under.toUnder⟩
termination_by structural run

theorem GroupsRun.under {path object source boundary groups acc st r st'}
    (run : GroupsRun c object source path boundary groups acc st r st')
    (bounded : boundary <+: path) (distinct : (groups.map (·.key)).Nodup)
    (fresh : ∀ g ∈ groups, g.key ∉ acc.map Prod.fst) :
    ∃ E M T, Added st st' E M T ∧ GroupsUnder path (groups.map (·.key)) acc r E M T := by
  match run with
  | .nil => exact ⟨[], [], [], Added.refl _, GroupsUnder.nil⟩
  | .empty _ rest =>
    obtain ⟨absent, distinct⟩ := List.nodup_cons.mp distinct
    obtain ⟨E, M, T, added, under⟩ :=
      rest.under bounded distinct fun g member => fresh g (List.mem_cons_of_mem _ member)
    exact ⟨E, M, T, added, under.cons_skip absent (fresh _ List.mem_cons_self)⟩
  | .typename _ _ rest =>
    obtain ⟨absent, distinct⟩ := List.nodup_cons.mp distinct
    obtain ⟨E, M, T, added, under⟩ := rest.under bounded distinct (fresh_after absent fresh)
    exact ⟨E, M, T, added, GroupsUnder.cons_entry (Under.leaf _) under absent (fresh _ List.mem_cons_self)⟩
  | .unknown _ _ _ recorded rest =>
    obtain ⟨absent, distinct⟩ := List.nodup_cons.mp distinct
    obtain ⟨e, at_key, recorded⟩ := added_addError recorded
    obtain ⟨E, M, T, added, under⟩ :=
      rest.under bounded distinct fun g member => fresh g (List.mem_cons_of_mem _ member)
    exact ⟨e :: E, M, T, recorded.trans added,
      under.cons_error at_key absent (fresh _ List.mem_cons_self)⟩
  | .pending _ _ _ field rest =>
    obtain ⟨absent, distinct⟩ := List.nodup_cons.mp distinct
    obtain ⟨E₁, M₁, T₁, added₁, under₁⟩ := field.under (boundaryOf_above _ bounded)
      (boundaryOf_ne _ bounded)
    obtain ⟨E₂, M₂, T₂, added₂, under₂⟩ := rest.under bounded distinct (fresh_after absent fresh)
    exact ⟨_, _, _, added₁.trans added₂,
      GroupsUnder.cons_entry under₁ under₂ absent (fresh _ List.mem_cons_self)⟩
  | .nulled _ _ _ field _ marked =>
    obtain ⟨E₁, M₁, T₁, added₁, under₁⟩ := field.under (boundaryOf_above _ bounded)
      (boundaryOf_ne _ bounded)
    obtain ⟨M₂, at_path, nulled, added₂⟩ := added_markNullified marked
    exact ⟨E₁, M₁ ++ M₂, T₁, by simpa using added₁.trans added₂,
      GroupsUnder.cons_nulled under₁ at_path nulled⟩
  | .value _ _ _ field _ rest =>
    obtain ⟨absent, distinct⟩ := List.nodup_cons.mp distinct
    obtain ⟨E₁, M₁, T₁, added₁, under₁⟩ := field.under (boundaryOf_above _ bounded)
      (boundaryOf_ne _ bounded)
    obtain ⟨E₂, M₂, T₂, added₂, under₂⟩ := rest.under bounded distinct (fresh_after absent fresh)
    exact ⟨_, _, _, added₁.trans added₂,
      GroupsUnder.cons_entry under₁ under₂ absent (fresh _ List.mem_cons_self)⟩
termination_by structural run

theorem FieldRun.under {path object source fd fields boundary st outcome st'}
    (run : FieldRun c object source fd fields path boundary st outcome st')
    (bounded : boundary <+: path) (strict : fd.type.isNonNull = true → boundary ≠ path) :
    ∃ E M T, Added st st' E M T ∧ Under path outcome.value E M T := by
  match run with
  | .argumentError _ recorded =>
    obtain ⟨e, at_path, added⟩ := added_addError recorded
    exact ⟨[e], [], [], added, Under.null_of_errors (by simp [at_path])⟩
  | .queued _ _ queued =>
    exact ⟨[], [], [_], added_enqueue queued, Under.queued rfl ⟨bounded, strict⟩⟩
  | .resolveError _ _ resolved recorded =>
    obtain ⟨e, at_path, added⟩ := added_addFieldError recorded
    exact ⟨[e], [], [], (added_resolve resolved).trans added,
      Under.null_of_errors (by simp [at_path])⟩
  | .resolved _ _ resolved value =>
    obtain ⟨E, M, T, added, under⟩ := value.under bounded
    exact ⟨E, M, T, (added_resolve resolved).trans added, under⟩
termination_by structural run

theorem ValueRun.under {path type fields result boundary st v st'}
    (run : ValueRun c type fields result path boundary st v st') (bounded : boundary <+: path) :
    ∃ E M T, Added st st' E M T ∧ Under path v E M T := by
  match run with
  | .nonNullNull settled _ reported =>
    obtain ⟨E₁, at₁, added₁⟩ := added_settle settled
    obtain ⟨E₂, at₂, added₂, -⟩ := added_reportNull reported
    refine ⟨E₁ ++ E₂, [], [], added₁.trans added₂, Under.null_of_errors ?_⟩
    intro e member
    rcases List.mem_append.mp member with member | member
    · exact at₁ e member
    · exact at₂ e member
  | .nonNull settled present inner =>
    obtain ⟨-, rfl⟩ := settle_present settled present
    exact inner.under bounded
  | .listNull settled _ | .namedNull settled _ =>
    obtain ⟨E, at_path, added⟩ := added_settle settled
    exact ⟨E, [], [], added, Under.null_of_errors at_path⟩
  | .list settled present list =>
    obtain ⟨-, rfl⟩ := settle_present settled present
    exact list.under bounded
  | .fail settled present _ recorded =>
    obtain ⟨-, rfl⟩ := settle_present settled present
    obtain ⟨e, at_path, added⟩ := added_addError recorded
    exact ⟨[e], [], [], added, Under.null_of_errors (by simp [at_path])⟩
  | .raise settled present _ recorded =>
    obtain ⟨-, rfl⟩ := settle_present settled present
    obtain ⟨e, at_path, added⟩ := added_addFieldError recorded
    exact ⟨[e], [], [], added, Under.null_of_errors (by simp [at_path])⟩
  | .leaf settled present named =>
    obtain ⟨-, rfl⟩ := settle_present settled present
    rcases completeNamed_eq_value named with ⟨-, rfl⟩ | ⟨j, -, rfl⟩
    · exact ⟨[], [], [], Added.refl _, Under.null_of_errors (by simp)⟩
    · exact ⟨[], [], [], Added.refl _, Under.leaf j⟩
  | .object settled present _ object =>
    obtain ⟨-, rfl⟩ := settle_present settled present
    exact object.under bounded
termination_by structural run

theorem ListRun.under {path inner fields result boundary st v st'}
    (run : ListRun c inner fields result path boundary st v st') (bounded : boundary <+: path) :
    ∃ E M T, Added st st' E M T ∧ Under path v E M T := by
  match run with
  | .items items =>
    obtain ⟨E, M, T, added, under⟩ := items.under bounded rfl
    exact ⟨E, M, T, added, under.toUnder⟩
  | .nulled items =>
    obtain ⟨E, M, T, added, under⟩ := items.under bounded rfl
    exact ⟨E, M, T, added, under.toUnder⟩
  | .notList _ recorded =>
    obtain ⟨e, at_path, added⟩ := added_addError recorded
    exact ⟨[e], [], [], added, Under.null_of_errors (by simp [at_path])⟩
termination_by structural run

theorem ItemsRun.under {path inner fields boundary index items acc st r st'}
    (run : ItemsRun c inner fields path boundary index items acc st r st')
    (bounded : boundary <+: path) (len : acc.length = index) :
    ∃ E M T, Added st st' E M T ∧ ItemsUnder path index acc r E M T := by
  match run with
  | .nil => exact ⟨[], [], [], Added.refl _, ItemsUnder.nil len⟩
  | .nulled item _ marked =>
    obtain ⟨E₁, M₁, T₁, added₁, under₁⟩ := item.under (boundaryOf_above _ bounded)
    obtain ⟨M₂, at_path, nulled, added₂⟩ := added_markNullified marked
    exact ⟨E₁, M₁ ++ M₂, T₁, by simpa using added₁.trans added₂,
      ItemsUnder.cons_nulled under₁ at_path nulled⟩
  | .next item _ rest =>
    obtain ⟨E₁, M₁, T₁, added₁, under₁⟩ := item.under (boundaryOf_above _ bounded)
    obtain ⟨E₂, M₂, T₂, added₂, under₂⟩ := rest.under bounded (by simp [len])
    exact ⟨_, _, _, added₁.trans added₂, ItemsUnder.cons_entry under₁ under₂ len⟩
termination_by structural run

theorem ObjectRun.under {path object fields result boundary st v st'}
    (run : ObjectRun c object fields result path boundary st v st') (bounded : boundary <+: path) :
    ∃ E M T, Added st st' E M T ∧ Under path v E M T := by
  match run with
  | .fields selections => exact selections.under bounded
  | .nulled selections => exact selections.under bounded
termination_by structural run

end

end Completions

end Exec

end GraphWeave
