import GraphWeave.Proofs.Execution.Conformance

/-! The data a request answers with conforms to its operation.

While batches run, the tree is an object whose entries fit the root selections, with a hole at
each field still to complete (`Typed`). Completing a batch result keeps this: a value is written
where its placeholder stands and fits there, and a null of a non-null field goes to the field's
boundary, which is the nearest position above it of a nullable type because boundaries only pass
down through non-null types. With consistency this is a batch invariant (`Conforms`), so a run
that ends with data ends with an object that fits the selections with no placeholder left. -/

namespace GraphWeave.Exec

open ResponseValue

variable {σ : Type}

/-- The tree of a running operation is an object whose entries fit the operation's selections
on the root type, with placeholders where `hole` allows them. -/
def Typed (c : ExecContext σ) (root : Schema.NamedType) (hole : Holes) (tree : ResponseValue) :
    Prop :=
  ∃ entries, tree = .object entries ∧ Entries c hole [] [] root c.operation.selections entries

section Typed

variable {c : ExecContext σ} {root : Schema.NamedType} {hole hole' : Holes}
  {tree : ResponseValue} {st : ExecState σ} {t : AsyncTask} {old : List AsyncTask}

theorem Typed.restrict (typed : Typed c root hole tree)
    (keep : ∀ p b T fs, tree.at? p = some .pending → hole p b T fs → hole' p b T fs) :
    Typed c root hole' tree := by
  obtain ⟨entries, rfl, fit⟩ := typed
  refine ⟨entries, rfl, fit.restrict fun rel b T fs pending allowed => ?_⟩
  simpa using keep rel b T fs pending (by simpa using allowed)

theorem Typed.path_ne_nil (typed : Typed c root hole tree) {p : Path}
    (pending : tree.at? p = some .pending) : p ≠ [] := by
  rintro rfl
  obtain ⟨entries, rfl, -⟩ := typed
  simp at pending

theorem Typed.entry_of_at? (typed : Typed c root hole tree) {p : Path} {u : ResponseValue}
    (found : tree.at? p = some u) (nonempty : p ≠ []) :
    ∃ k x e, p = .key k :: x ∧ Entry c hole [] [] root c.operation.selections k e ∧
      e.at? x = some u := by
  obtain ⟨entries, rfl, fit⟩ := typed
  cases p with
  | nil => exact absurd rfl nonempty
  | cons s x =>
    cases s with
    | index i => simp [at?] at found
    | key k =>
      obtain ⟨e, entry, below⟩ := Option.bind_eq_some_iff.mp (by simpa using found)
      exact ⟨k, x, e, rfl, fit.2 k e (mem_of_lookup entry), below⟩

theorem holesOf_keep {tasks tasks' : List AsyncTask}
    (keep : ∀ t ∈ tasks, tree.at? t.task.path = some .pending → t ∈ tasks') :
    ∀ p b T fs, tree.at? p = some .pending → holesOf tasks p b T fs → holesOf tasks' p b T fs := by
  rintro p b T fs pending ⟨t, member, rfl, same⟩
  exact ⟨t, keep t member pending, rfl, same⟩

/-- Rewriting a position of the data by anything that fits it there keeps the data typed. -/
theorem Typed.replaceAt (typed : Typed c root hole tree)
    (grows : ∀ p b T fs, hole p b T fs → hole' p b T fs) {p : Path} (nonempty : p ≠ [])
    {u w : ResponseValue} (present : tree.at? p = some u) (notLeaf : ∀ j, u ≠ .leaf j)
    (replace : Replaces c hole hole' p u w) : Typed c root hole' (tree.setAt p w) := by
  obtain ⟨entries, rfl, fit⟩ := typed
  rw [setAt_eq_replaceAt _ nonempty]
  cases p with
  | nil => exact absurd rfl nonempty
  | cons s rest =>
    cases s with
    | index i => simp [at?] at present
    | key k =>
      obtain ⟨e, found, below⟩ := Option.bind_eq_some_iff.mp (by simpa using present)
      rw [replaceAt_object_key found]
      have new := (fit.2 k e (mem_of_lookup found)).replaceAt grows List.nil_prefix below notLeaf
        (by simpa using replace)
      exact ⟨_, rfl, (fit.mono grows).update (f := fun x => x.replaceAt rest w) found new⟩

theorem Consistent.eq_of_path (inv : Consistent tree st (t :: old)) {t' : AsyncTask}
    (member : t' ∈ t :: old) (same : t'.task.path = t.task.path) : t' = t := by
  rcases List.mem_cons.mp member with rfl | member
  · rfl
  · have distinct := inv.distinct
    simp only [List.map_cons, List.nodup_cons] at distinct
    exact absurd (same ▸ List.mem_map_of_mem (f := (·.task.path)) member) distinct.1

theorem Typed.drop (inv : Consistent tree st (t :: old))
    (typed : Typed c root (holesOf (t :: old)) tree) (nulled : isNullified st t.task.path = true) :
    Typed c root (holesOf old) tree := by
  refine typed.restrict (holesOf_keep fun t' member pending => ?_)
  rcases List.mem_cons.mp member with rfl | member
  · rw [inv.live pending] at nulled
    cases nulled
  · exact member

theorem Typed.keepLive {tasks : List AsyncTask} (inv : Consistent tree st tasks)
    (typed : Typed c root (holesOf tasks) tree) :
    Typed c root (holesOf (tasks.filter fun t => !isNullified st t.task.path)) tree :=
  typed.restrict (holesOf_keep fun _ member pending =>
    List.mem_filter.mpr ⟨member, by simp [inv.live pending]⟩)

/-- Writing a completed value that fits where its placeholder stands keeps the data typed. -/
theorem Typed.write (inv : Consistent tree st (t :: old))
    (typed : Typed c root (holesOf (t :: old)) tree)
    (placeholder : tree.at? t.task.path = some .pending) {v : ResponseValue}
    {new : List AsyncTask} (kept : ∀ t' ∈ old, t' ∈ new) (filled : v ≠ .pending)
    (fit : Fits c (holesOf new) t.task.path t.boundary t.type t.task.fields v) :
    Typed c root (holesOf new) (tree.setAt t.task.path v) := by
  have nonempty := inv.path_ne_nil placeholder
  have grows : ∀ p b T fs, holesOf (t :: old) p b T fs → holesOf (t :: new) p b T fs :=
    holesOf_mono fun t' member => by
      rcases List.mem_cons.mp member with rfl | member
      · exact List.mem_cons_self
      · exact List.mem_cons_of_mem _ (kept t' member)
  have replace : Replaces c (holesOf (t :: old)) (holesOf (t :: new)) t.task.path .pending v := by
    intro b T fs pending _ _
    obtain ⟨t', member, same, rfl, rfl, rfl⟩ := pending.hole_of_placeholder
    rw [inv.eq_of_path member same]
    exact fit.mono (holesOf_mono fun _ member => List.mem_cons_of_mem _ member)
  refine (typed.replaceAt grows nonempty placeholder (fun _ => by simp) replace).restrict
    (holesOf_keep fun t' member pending => ?_)
  rcases List.mem_cons.mp member with rfl | member
  · have written := at?_setAt_append placeholder nonempty (v := v) []
    rw [List.append_nil, pending, at?_nil] at written
    exact absurd (Option.some.inj written).symm filled
  · exact member

/-- Writing null at the boundary of a non-null field that came out null keeps the data typed:
the boundary is the nearest position above the field whose type is nullable. -/
theorem Typed.nullBoundary (inv : Consistent tree st (t :: old))
    (typed : Typed c root (holesOf (t :: old)) tree)
    (placeholder : tree.at? t.task.path = some .pending) (nonNull : t.type.isNonNull = true)
    (nonempty : t.boundary ≠ []) {new : List AsyncTask} (kept : ∀ t' ∈ old, t' ∈ new) :
    Typed c root (holesOf new) (tree.setAt t.boundary .null) := by
  obtain ⟨⟨x, same⟩, strict⟩ := inv.bounded t List.mem_cons_self
  have deeper : x ≠ [] := by
    rintro rfl
    exact strict nonNull (by simpa using same)
  have present : ∃ u, tree.at? t.boundary = some u ∧ u.at? x = some .pending := by
    rw [← same, at?_append] at placeholder
    cases above : tree.at? t.boundary with
    | none => simp [above] at placeholder
    | some u => exact ⟨u, rfl, by simpa [above] using placeholder⟩
  obtain ⟨u, present, below⟩ := present
  have notLeaf : ∀ j, u ≠ .leaf j := by
    rintro j rfl
    cases x with
    | nil => exact deeper rfl
    | cons s x => simp at below
  have replace : Replaces c (holesOf (t :: old)) (holesOf (t :: old)) t.boundary u .null := by
    intro b T fs fit _ own
    refine .null (own ?_)
    obtain ⟨b', T', fs', ⟨t', member, at_path, rfl, -, -⟩, lies⟩ := fit.hole_of_pending below
    rw [inv.eq_of_path member (at_path.trans same)] at lies
    rcases lies with same' | ⟨s, longer⟩
    · exact same'.symm
    · have := longer.length_le
      simp at this
  refine (typed.replaceAt (fun _ _ _ _ allowed => allowed) nonempty present notLeaf
    replace).restrict (holesOf_keep fun t' member pending => ?_)
  rcases List.mem_cons.mp member with rfl | member
  · rw [← same, at?_setAt_append present nonempty x] at pending
    cases x with
    | nil => exact absurd rfl deeper
    | cons s x => simp at pending
  · exact kept t' member

theorem completeResult_fits {fuel : Nat} {result : Except FieldError Resolved} {v : ResponseValue}
    {st' : ExecState σ} (h : (completeResult c fuel t result).run st = some (v, st')) :
    v ≠ .pending ∧
      (v = .null ∨ Fits c (holesOf st'.queue.toList) t.task.path t.boundary t.type t.task.fields v) := by
  cases result with
  | error e =>
    simp only [completeResult, run_bind_eq_some, run_pure_eq_some] at h
    obtain ⟨⟨⟩, st₁, -, rfl, rfl⟩ := h
    exact ⟨by simp, .inl rfl⟩
  | ok r => exact ((sound c fuel).value _ _ _ _ _ _ _ _ h).fits

/-- Completing one result keeps the data typed for the rest of the batch and the fields queued
so far, unless it made the data root null. -/
theorem Typed.completeAsync {fuel : Nat} {rest : List AsyncTask}
    {result : Except FieldError Resolved} {tree' : ResponseValue} {st' : ExecState σ}
    (inv : Consistent tree st (t :: rest ++ st.queue.toList))
    (typed : Typed c root (holesOf (t :: rest ++ st.queue.toList)) tree)
    (h : (completeAsync c fuel t result tree).run st = some (tree', st')) :
    st'.dataNull = true ∨ Typed c root (holesOf (rest ++ st'.queue.toList)) tree' := by
  rcases completeAsync_cases h with ⟨nulled, rfl, rfl⟩ | ⟨live, v, st₁, completed, placed⟩
  · exact .inr (typed.drop inv nulled)
  have placeholder : tree.at? t.task.path = some .pending :=
    (inv.queued t List.mem_cons_self).resolve_left (by simp [live])
  obtain ⟨E, M, T, added, -⟩ :=
    completeResult_under completed (inv.bounded t List.mem_cons_self).1
  have kept : ∀ {st'' : ExecState σ}, st''.queue.toList = st₁.queue.toList →
      ∀ t' ∈ rest ++ st.queue.toList, t' ∈ rest ++ st''.queue.toList := by
    intro st'' queue t' member
    rw [queue, added.queue_eq, ← List.append_assoc]
    exact List.mem_append_left _ member
  obtain ⟨filled, fits⟩ := completeResult_fits completed
  rcases placeAsync_cases placed with
    ⟨-, -, -, rfl, rfl⟩ | ⟨-, nonNull, nonempty, rfl, marked⟩ | ⟨either, rfl, rfl⟩
  · exact .inl rfl
  · obtain ⟨M₂, -, -, added₂⟩ := added_markNullified marked
    exact .inr (typed.nullBoundary inv placeholder nonNull nonempty
      (kept (by simp [added₂.queue_eq])))
  · refine .inr (typed.write inv placeholder (kept rfl) filled ?_)
    rcases fits with null | fit
    · subst null
      exact .null (by simpa [ResponseValue.isNull] using either)
    · exact fit.mono (holesOf_mono fun _ member => List.mem_append_right _ member)

theorem Typed.no_pending (typed : Typed c root (holesOf []) tree) (p : Path) :
    tree.at? p ≠ some .pending := by
  intro pending
  obtain ⟨k, x, e, rfl, entry, below⟩ := typed.entry_of_at? pending (typed.path_ne_nil pending)
  obtain ⟨b, T, fs, ⟨t, member, -⟩, -⟩ := entry.hole_of_pending below
  cases member

end Typed

/-- The data of a running operation is consistent with its state and typed by the root
selections, with a hole for each field still to complete. -/
def Conforms (c : ExecContext σ) (root : Schema.NamedType) (tree : ResponseValue)
    (st : ExecState σ) (tasks : List AsyncTask) : Prop :=
  Consistent tree st tasks ∧ Typed c root (holesOf tasks) tree

theorem Conforms.batchInvariant {c : ExecContext σ} {root : Schema.NamedType} {fuel : Nat} :
    BatchInvariant c fuel (Conforms c root) where
  step holds h := by
    rcases Consistent.batchInvariant.step holds.1 h with null | consistent
    · exact .inl null
    rcases Typed.completeAsync holds.1 holds.2 h with null | typed
    · exact .inl null
    exact .inr ⟨consistent, typed⟩
  keepLive holds errors marks := ⟨holds.1.keepLive errors marks, holds.2.keepLive holds.1⟩

end GraphWeave.Exec

namespace GraphWeave.Schema

open Exec

variable {σ : Type}

/-- A run of an operation that ends with data gives an object whose entries fit the operation's
selections on the root type, with no placeholder left. -/
theorem runOperationWithin_typed {budget : Nat} {s : Schema} {runtime : Runtime σ}
    {doc : Document} {op : Operation} {rootType : NamedType} {vars : List (String × Value)}
    {root : Resolved} {host host' : σ} {result : ExecutionResult} {d : ResponseValue}
    (h : s.runOperationWithin budget runtime doc op rootType vars root host = (some result, host'))
    (data : result.data = some d) : Typed ⟨runtime, s, doc, op, vars⟩ rootType (holesOf []) d := by
  obtain ⟨fs, st₁, st, selected, batches, live, -⟩ := runOperationWithin_cases h data
  have ran := (sound _ budget).selections _ _ _ _ _ _ _ _ selected
  obtain ⟨E, M, T, added, under⟩ := ran.under (List.prefix_refl _)
  have queue : st₁.queue.toList = T := by simpa using added.queue_eq
  have start : Conforms ⟨runtime, s, doc, op, vars⟩ rootType (.object fs) st₁ st₁.queue.toList := by
    rw [queue]
    exact ⟨Consistent.start added under, fs, rfl, queue ▸ ran.fits fs rfl⟩
  rcases Conforms.batchInvariant.runBatches budget (.inr start) batches with null | ⟨done, -⟩
  · simp [null] at live
  · exact done.2

theorem runOperation_typed {s : Schema} {runtime : Runtime σ} {doc : Document} {op : Operation}
    {rootType : NamedType} {vars : List (String × Value)} {root : Resolved} {host : σ}
    {d : ResponseValue} (data : (s.runOperation runtime doc op rootType vars root host).1.data = some d) :
    Typed ⟨runtime, s, doc, op, vars⟩ rootType (holesOf []) d := by
  obtain ⟨host', finished⟩ := runOperation_finished data
  exact runOperationWithin_typed finished data

end GraphWeave.Schema

namespace GraphWeave

open Exec

/-- A request that answers with data answers with data that conforms to its operation: no
placeholder is left anywhere in it, and it is an object whose entries fit the operation's
selections on the root type of the operation's kind. So every position of a non-null type
holds a value that is not null, every position of a list type holds a list or null, every item
of a list of non-null items is not null, and every null of a non-null position has gone to the
nearest nullable position above it or made the data null. -/
theorem execute_data_conforms {σ : Type} (s : Schema) (runtime : Runtime σ) (doc : Document)
    (operationName : String) (given : List (String × Value)) (root : Resolved) (host : σ)
    (d : ResponseValue)
    (data : (s.execute runtime doc operationName given root host).1.data = some d) :
    (∀ p, d.at? p ≠ some .pending) ∧
      ∃ op vars rootType entries, doc.operation? operationName = some op ∧
        s.coerceVariables given op.variableDefinitions = .ok vars ∧
        s.RootTypeOf op.kind rootType ∧ d = .object entries ∧
        Entries ⟨runtime, s, doc, op, vars⟩ (fun _ _ _ _ => False) [] [] rootType op.selections
          entries := by
  obtain ⟨op, rootType, vars, found, coerced, rooted, ran⟩ := Schema.execute_eq_runOperation data
  rw [ran] at data
  have typed := Schema.runOperation_typed data
  refine ⟨typed.no_pending, op, vars, rootType, ?_⟩
  obtain ⟨entries, rfl, fit⟩ := typed
  exact ⟨entries, found, coerced, rooted, rfl,
    fit.mono fun _ _ _ _ ⟨_, member, _⟩ => by cases member⟩

/-- A non-null custom scalar field that serializes to a string answers with that string. -/
theorem execute_data_conforms_leaf :
    ((customScalarSchema (.nonNull (.named "Custom"))).execute (leafRuntime fun _ => .ok (.str "x"))
        ⟨[selectV], []⟩ "" [] .null ()).1.data = some (.object [("v", .leaf (.str "x"))]) ∧
      (∀ p, (ResponseValue.object [("v", .leaf (.str "x"))]).at? p ≠ some .pending) ∧
      ∃ op vars rootType entries, (⟨[selectV], []⟩ : Document).operation? "" = some op ∧
        (customScalarSchema (.nonNull (.named "Custom"))).coerceVariables [] op.variableDefinitions =
          .ok vars ∧
        (customScalarSchema (.nonNull (.named "Custom"))).RootTypeOf op.kind rootType ∧
        ResponseValue.object [("v", .leaf (.str "x"))] = .object entries ∧
        Entries ⟨leafRuntime fun _ => .ok (.str "x"), customScalarSchema (.nonNull (.named "Custom")),
          ⟨[selectV], []⟩, op, vars⟩ (fun _ _ _ _ => False) [] [] rootType op.selections entries := by
  have data : ((customScalarSchema (.nonNull (.named "Custom"))).execute
      (leafRuntime fun _ => .ok (.str "x")) ⟨[selectV], []⟩ "" [] .null ()).1.data =
      some (.object [("v", .leaf (.str "x"))]) := by cbv
  exact ⟨data, execute_data_conforms _ _ _ _ _ _ _ _ data⟩

end GraphWeave
