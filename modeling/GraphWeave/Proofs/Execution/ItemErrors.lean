import GraphWeave.Definition.Runtime
import GraphWeave.Proofs.Execution.Semantics
import Mathlib

/-!
The errors of list items stay with their items. A resolver that returns a list of results, consumed
or referenced, gives a list whose failed results are error items (`Output.owned`,
`Output.referenced`).
-/

namespace GraphWeave

variable {σ : Type}

namespace Output

/-- A result of a resolver's list: a value, or the message of its error. -/
def ofResult : Except String Output → Output
  | .ok x => .ok .any x
  | .error message => .err message

/-- The item a list holds for a value that resolves, or fails, on its own. -/
def itemOf : Except FieldError FieldValue → FieldValue
  | .ok fv => fv
  | .error e => FieldValue.ofError e

/-- The item a result of a list becomes: its value, or an error item. -/
def resultItem : Except String Output → FieldValue
  | .ok x => itemOf x.owned
  | .error message => FieldValue.ofError { message }

/-- A resolver returned `x`, consumed or by reference, as the field value `fv`. -/
def Returns (x : Output) (fv : FieldValue) : Prop :=
  x.owned = .ok fv ∨ x.referenced = .ok fv

theorem ownedItems_eq (items : List Output) :
    owned.ownedItems items = items.map fun x => itemOf x.owned := by
  induction items with
  | nil => rfl
  | cons x rest ih =>
    rw [owned.ownedItems, ih, List.map_cons]
    congr 1

theorem owned_results (rs : List (Except String Output)) :
    (Output.list .any (rs.map ofResult)).owned = .ok (FieldValue.ofList (rs.map resultItem)) := by
  rw [owned, ownedItems_eq, List.map_map]
  congr 2
  apply List.map_congr_left
  intro r _
  cases r <;> rfl

theorem referenced_results (rs : List (Except String Output)) :
    (Output.list .any (rs.map ofResult)).referenced = .ok (FieldValue.ofList (rs.map resultItem)) := by
  rw [referenced, List.map_map]
  congr 2
  apply List.map_congr_left
  intro r _
  cases r with
  | ok x => exact (congrArg itemOf rfl).trans (by cases owned x <;> rfl)
  | error message => rfl

/-- A list of lists of results gives, either way, the list of the lists of their items. -/
theorem nested_results (rss : List (List (Except String Output))) {fv : FieldValue}
    (returned : Returns (.list .any (rss.map fun rs => .list .any (rs.map ofResult))) fv) :
    fv = FieldValue.ofList (rss.map fun rs => FieldValue.ofList (rs.map resultItem)) := by
  have inner : ∀ rs : List (Except String Output),
      itemOf (owned (.list .any (rs.map ofResult))) = FieldValue.ofList (rs.map resultItem) := by
    intro rs
    rw [owned_results]
    rfl
  have items : FieldValue.ofList (rss.map fun rs => FieldValue.ofList (rs.map resultItem)) =
      FieldValue.ofList ((rss.map fun rs => Output.list .any (rs.map ofResult)).map
        fun x => itemOf x.owned) := by
    simp only [List.map_map, Function.comp_def, inner]
  rcases returned with returned | returned
  · rw [owned, ownedItems_eq] at returned
    rw [items]
    exact (Except.ok.inj returned).symm
  · rw [referenced] at returned
    rw [items]
    refine (Except.ok.inj returned).symm.trans ?_
    congr 1
    apply List.map_congr_left
    intro x member
    obtain ⟨rs, -, rfl⟩ := List.mem_map.mp member
    rfl

theorem flat_results (rs : List (Except String Output)) {fv : FieldValue}
    (returned : Returns (.list .any (rs.map ofResult)) fv) :
    fv = FieldValue.ofList (rs.map resultItem) := by
  rcases returned with returned | returned
  · rw [owned_results] at returned
    exact (Except.ok.inj returned).symm
  · rw [referenced_results] at returned
    exact (Except.ok.inj returned).symm

/-- What the runtime hands the executor for a list of results: each item's resolved view. -/
def resolvedResults (rs : List (Except String Output)) : Resolved :=
  .list (rs.map fun r => (resultItem r).toResolved)

end Output

theorem FieldValue.toResolved_ofList (items : List FieldValue) :
    (FieldValue.ofList items).toResolved = .list (items.map FieldValue.toResolved) := by
  simp [FieldValue.ofList, FieldValue.toResolved]

namespace ExecutableSchema

theorem runtime_resolve_list (s : ExecutableSchema σ) (md : Metadata) (task : ResolveTask)
    {session session' : Session σ} {items : List FieldValue}
    (called : (s.call md task).run session = (.ok (FieldValue.ofList items), session')) :
    ((s.runtime md).resolve task).run session =
      (.ok (.list (items.map FieldValue.toResolved)), session') := by
  simp only [runtime, resolveTask, StateT.run_bind, called]
  exact congrArg (fun r => (Except.ok r, session')) (FieldValue.toResolved_ofList items)

theorem runtime_answers_results (s : ExecutableSchema σ) (md : Metadata) (task : ResolveTask)
    {session session' : Session σ} {rs : List (Except String Output)} {fv : FieldValue}
    (returned : (Output.list .any (rs.map Output.ofResult)).Returns fv)
    (called : (s.call md task).run session = (.ok fv, session')) :
    ((s.runtime md).resolve task).run session = (.ok (Output.resolvedResults rs), session') := by
  rw [Output.flat_results rs returned] at called
  rw [runtime_resolve_list s md task called, List.map_map]
  rfl

theorem runtime_answers_nested (s : ExecutableSchema σ) (md : Metadata) (task : ResolveTask)
    {session session' : Session σ} {rss : List (List (Except String Output))} {fv : FieldValue}
    (returned : (Output.list .any (rss.map fun rs => .list .any (rs.map Output.ofResult))).Returns fv)
    (called : (s.call md task).run session = (.ok fv, session')) :
    ((s.runtime md).resolve task).run session =
      (.ok (.list (rss.map Output.resolvedResults)), session') := by
  rw [Output.nested_results rss returned] at called
  rw [runtime_resolve_list s md task called, List.map_map]
  simp only [Function.comp_def, FieldValue.toResolved_ofList, List.map_map]
  rfl

theorem present_of_serialize (s : ExecutableSchema σ) {typeName : String} {r : Resolved}
    {j : Json} (written : s.serialize typeName r = .ok j) (notNull : j ≠ .null) :
    r.isNull = false ∧ ∀ e, r ≠ .itemError e := by
  cases r with
  | null | itemError _ =>
    simp only [serialize, Except.ok.injEq] at written
    exact absurd written.symm notNull
  | single _ | list _ => exact ⟨rfl, by simp⟩

/-- The schema writes the value of a result as `json` gives it, never as null; a failed
result asks nothing. -/
def Writes (s : ExecutableSchema σ) (T : String) (json : Output → Json) :
    Except String Output → Prop
  | .ok x => s.serialize T (Output.itemOf x.owned).toResolved = .ok (json x) ∧ json x ≠ .null
  | .error _ => True

end ExecutableSchema

namespace Exec

section Completion

variable {c : ExecContext σ} {fields : List Field}

/-- Completing `result` at `type` and `path`, from any state, gives `v` and records the errors
`E` after those already there, changing nothing else. -/
def Completes (c : ExecContext σ) (fuel : Nat) (type : TypeRef) (fields : List Field)
    (result : Resolved) (path boundary : Path) (v : ResponseValue) (E : List ResponseError) :
    Prop :=
  ∀ st : ExecState σ, (completeValue c fuel type fields result path boundary).run st =
    some (v, { st with errors := st.errors ++ E.toArray })

/-- The error a failed item records at its path. -/
def itemFailure (fields : List Field) (path : Path) (e : FieldError) : ResponseError :=
  ⟨e.message, locationsOf fields, path, e.extensions⟩

theorem settle_itemError (path : Path) (e : FieldError) (st : ExecState σ) :
    (settle path fields (.itemError e)).run st =
      some (.null, { st with errors := st.errors.push (itemFailure fields path e) }) :=
  rfl

theorem settle_of_clean {path : Path} {r : Resolved} (clean : ∀ e, r ≠ .itemError e) :
    settle (σ := σ) path fields r = pure r := by
  cases r with
  | itemError e => exact absurd rfl (clean e)
  | null | single _ | list _ => rfl

theorem present_list (items : List Resolved) :
    (Resolved.list items).isNull = false ∧ ∀ e, Resolved.list items ≠ .itemError e :=
  ⟨rfl, by simp⟩

theorem completes_itemError (fuel : Nat) (T : String) (e : FieldError) (path boundary : Path) :
    Completes c (fuel + 1) (.named T) fields (.itemError e) path boundary .null
      [itemFailure fields path e] := by
  intro st
  rw [completeValue]
  simp [settle, addFieldError, Resolved.isNull, itemFailure]

theorem completes_leaf {fuel : Nat} {T : String} {r : Resolved} {j : Json} (path boundary : Path)
    (present : r.isNull = false) (clean : ∀ e, r ≠ .itemError e)
    (written : completeNamed c T r = .value (.leaf j)) :
    Completes c (fuel + 1) (.named T) fields r path boundary (.leaf j) [] := by
  intro st
  rw [completeValue, settle_of_clean clean]
  simp [present, written]

theorem run_nonNull {fuel : Nat} {inner : TypeRef} {r : Resolved} {path boundary : Path}
    (present : r.isNull = false) (clean : ∀ e, r ≠ .itemError e) (st : ExecState σ) :
    (completeValue c (fuel + 1) (.nonNull inner) fields r path boundary).run st =
      (completeValue c fuel inner fields r path boundary).run st := by
  rw [completeValue, settle_of_clean clean, pure_bind]
  simp only [present, Bool.false_eq_true, ↓reduceIte]

theorem completes_nonNull {fuel : Nat} {inner : TypeRef} {r : Resolved} {path boundary : Path}
    {v : ResponseValue} {E : List ResponseError} (present : r.isNull = false)
    (clean : ∀ e, r ≠ .itemError e) (completes : Completes c fuel inner fields r path boundary v E) :
    Completes c (fuel + 1) (.nonNull inner) fields r path boundary v E := by
  intro st
  rw [run_nonNull present clean]
  exact completes st

theorem completeValue_list {fuel : Nat} {inner : TypeRef} {items : List Resolved}
    {path boundary : Path} {st st' : ExecState σ} {values : Option (List ResponseValue)}
    (completed : (completeItems c fuel inner fields path boundary 0 items []).run st =
      some (values, st')) :
    (completeValue c (fuel + 2) (.list inner) fields (.list items) path boundary).run st =
      some (values.elim .null .list, st') := by
  rw [completeValue, settle_of_clean (present_list items).2, pure_bind]
  simp only [Resolved.isNull, Bool.false_eq_true, ↓reduceIte]
  rw [completeList]
  refine run_bind_eq_some.mpr ⟨values, st', completed, ?_⟩
  cases values <;> rfl

/-- Items that may be null complete one after another, each at its index; the list records
their errors in order. -/
theorem completeItems_nullable {fuel : Nat} {inner : TypeRef} (path boundary : Path)
    (nullable : inner.isNonNull = false) :
    ∀ (items : List Resolved) (outs : List (ResponseValue × List ResponseError)) (index : Nat)
      (acc : List ResponseValue),
      List.Forall₂ (fun (x : Resolved × Nat) (o : ResponseValue × List ResponseError) =>
        Completes c fuel inner fields x.1 (path ++ [.index x.2]) (path ++ [.index x.2]) o.1 o.2)
        (items.zipIdx index) outs →
      ∀ st : ExecState σ, (completeItems c fuel inner fields path boundary index items acc).run st =
        some (some (acc ++ outs.map Prod.fst),
          { st with errors := st.errors ++ (outs.flatMap Prod.snd).toArray })
  | [], outs, index, acc, each, st => by
    cases each
    rw [completeItems]
    simp
  | item :: rest, outs, index, acc, each, st => by
    rw [List.zipIdx_cons] at each
    cases each with
    | cons first later =>
    rename_i o outs'
    obtain ⟨v, E⟩ := o
    rw [completeItems]
    simp only [nullable, Bool.false_eq_true, if_false]
    refine run_bind_eq_some.mpr ⟨v, _, first st, ?_⟩
    have next := completeItems_nullable path boundary nullable rest outs' (index + 1) (acc ++ [v])
      later { st with errors := st.errors ++ E.toArray }
    by_cases null : v.isNull = true
    · obtain rfl := ResponseValue.eq_null_of_isNull null
      simpa [List.flatMap_cons, Array.append_assoc] using next
    · simpa [null, List.flatMap_cons, Array.append_assoc] using next

theorem completes_list {fuel : Nat} {inner : TypeRef} {items : List Resolved}
    {outs : List (ResponseValue × List ResponseError)} (path boundary : Path)
    (nullable : inner.isNonNull = false)
    (each : List.Forall₂ (fun (x : Resolved × Nat) (o : ResponseValue × List ResponseError) =>
      Completes c fuel inner fields x.1 (path ++ [.index x.2]) (path ++ [.index x.2]) o.1 o.2)
      (items.zipIdx 0) outs) :
    Completes c (fuel + 2) (.list inner) fields (.list items) path boundary
      (.list (outs.map Prod.fst)) (outs.flatMap Prod.snd) := by
  intro st
  rw [completeValue_list (completeItems_nullable path boundary nullable items outs 0 [] each st)]
  simp

theorem reportNull_of_recorded {path : Path} {st : ExecState σ}
    (recorded : (st.errors.any fun e => e.path == path) = true) :
    (reportNull path fields).run st = some ((), st) := by
  simp only [reportNull, hasErrorAt, StateT.run_bind, StateT.run_get, StateT.run_pure, pure_bind,
    recorded, Bool.not_true, Bool.false_eq_true, ↓reduceIte]
  rfl

theorem nonNull_itemError (fuel : Nat) (T : String) (e : FieldError) (path boundary : Path)
    (st : ExecState σ) :
    (completeValue c (fuel + 1) (.nonNull (.named T)) fields (.itemError e) path boundary).run st =
      some (.null, { st with errors := st.errors.push (itemFailure fields path e) }) := by
  have recorded : ((st.errors.push (itemFailure fields path e)).any fun e => e.path == path) :=
    by simp [itemFailure]
  rw [completeValue]
  refine run_bind_eq_some.mpr ⟨.null, _, settle_itemError path e st, ?_⟩
  simp only [Resolved.isNull, ↓reduceIte]
  exact run_bind_eq_some.mpr ⟨(), _, reportNull_of_recorded recorded, rfl⟩

/-- Items that may not be null complete one after another up to the first failed one, which is
null: the list stops there and is marked nulled, with that item's error the only one. -/
theorem completeItems_stops {fuel : Nat} {inner : TypeRef} (path boundary : Path)
    (nonNull : inner.isNonNull = true) (nonempty : path ≠ []) {e : FieldError}
    (fails : ∀ p (st : ExecState σ),
      (completeValue c fuel inner fields (.itemError e) p boundary).run st =
        some (.null, { st with errors := st.errors.push (itemFailure fields p e) }))
    (rest : List Resolved) :
    ∀ (oks : List Resolved) (index : Nat) (acc : List ResponseValue),
      (∀ r ∈ oks, ∃ v, v.isNull = false ∧ ∀ p, Completes c fuel inner fields r p boundary v []) →
      ∀ st : ExecState σ,
        (completeItems c fuel inner fields path boundary index (oks ++ .itemError e :: rest)
            acc).run st =
          some (none, { st with
            errors := st.errors.push (itemFailure fields (path ++ [.index (index + oks.length)]) e)
            nullified := st.nullified ++ [path] })
  | [], index, acc, _, st => by
    rw [List.nil_append, completeItems]
    simp only [nonNull, if_true]
    refine run_bind_eq_some.mpr ⟨.null, _, fails _ st, ?_⟩
    simp [markNullified, nonempty, ResponseValue.isNull]
  | r :: oks, index, acc, present, st => by
    obtain ⟨v, notNull, completes⟩ := present r List.mem_cons_self
    rw [List.cons_append, completeItems]
    simp only [nonNull, if_true]
    refine run_bind_eq_some.mpr ⟨v, _, completes _ st, ?_⟩
    have next := completeItems_stops path boundary nonNull nonempty fails rest oks (index + 1)
      (acc ++ [v]) (fun r' member => present r' (List.mem_cons_of_mem r member))
      { st with errors := st.errors ++ [].toArray }
    have shift : index + 1 + oks.length = index + (r :: oks).length := by
      simp only [List.length_cons]
      omega
    simpa [notNull, shift] using next

/-- A list whose items may not be null and whose first failed item follows the items `oks` is
null: that item's error is the only one, and the list's subtree is marked nulled. -/
theorem completes_list_stops {fuel : Nat} {inner : TypeRef} (path boundary : Path)
    (nonNull : inner.isNonNull = true) (nonempty : path ≠ []) {e : FieldError}
    (fails : ∀ p (st : ExecState σ),
      (completeValue c fuel inner fields (.itemError e) p boundary).run st =
        some (.null, { st with errors := st.errors.push (itemFailure fields p e) }))
    {oks rest : List Resolved}
    (present : ∀ r ∈ oks, ∃ v, v.isNull = false ∧ ∀ p, Completes c fuel inner fields r p boundary v [])
    (st : ExecState σ) :
    (completeValue c (fuel + 2) (.list inner) fields (.list (oks ++ .itemError e :: rest)) path
        boundary).run st =
      some (.null, { st with
        errors := st.errors.push (itemFailure fields (path ++ [.index oks.length]) e)
        nullified := st.nullified ++ [path] }) := by
  have stops := completeItems_stops path boundary nonNull nonempty fails rest oks 0 [] present st
  rw [Nat.zero_add] at stops
  exact completeValue_list stops

/-- A field that runs now, with arguments that coerce, hands its resolver's answer to
completion: its value is the completed value, and the resolver's host state and the
completion's errors are its only changes to the state. -/
theorem executeField_completes {fuel : Nat} {object : Schema.NamedType} {source : Resolved}
    {fd : Schema.Field} {path boundary : Path} {args : List (String × Value)}
    (coerced : c.schema.coerceArguments c.variableValues fd (writtenArguments fields) = .ok args)
    (now : (fd.async && !isSerial c path) = false) {st : ExecState σ} {r : Resolved} {host : σ}
    (answered : (c.runtime.resolve (fieldTask c object source fd args fields path)).run st.host =
      (.ok r, host))
    {v : ResponseValue} {E : List ResponseError}
    (completes : Completes c fuel fd.type fields r path boundary v E) :
    (executeField c (fuel + 1) object source fd fields path boundary).run st =
      some (.done v, { st with host, errors := st.errors ++ E.toArray }) := by
  rw [executeField, coerced]
  dsimp only
  rw [now]
  simp only [Bool.false_eq_true, ↓reduceIte]
  refine run_bind_eq_some.mpr ⟨.ok r, { st with host }, ?_, ?_⟩
  · simp only [resolve, StateT.run, fieldTask] at answered ⊢
    rw [answered]
  simp [completes { st with host }]

/-- A list whose items may be null, each completing on its own at its index, completes to the
list of their values, with their errors in index order. -/
theorem completes_list_map {α : Type} {fuel : Nat} {inner : TypeRef}
    (nullable : inner.isNonNull = false) {xs : List α} {item : α → Resolved}
    {value : α → ResponseValue} {errors : Path → α → List ResponseError}
    (each : ∀ x ∈ xs, ∀ p, Completes c fuel inner fields (item x) p p (value x) (errors p x))
    (path boundary : Path) :
    Completes c (fuel + 2) (.list inner) fields (.list (xs.map item)) path boundary
      (.list (xs.map value)) (xs.zipIdx.flatMap fun y => errors (path ++ [.index y.2]) y.1) := by
  let outs := xs.zipIdx.map fun y => (value y.1, errors (path ++ [.index y.2]) y.1)
  have related : List.Forall₂ (fun (y : Resolved × Nat) (o : ResponseValue × List ResponseError) =>
      Completes c fuel inner fields y.1 (path ++ [.index y.2]) (path ++ [.index y.2]) o.1 o.2)
      ((xs.map item).zipIdx 0) outs := by
    rw [List.zipIdx_map, List.forall₂_map_left_iff, List.forall₂_map_right_iff, List.forall₂_same]
    intro y member
    exact each y.1 (List.fst_mem_of_mem_zipIdx member) _
  have values : outs.map Prod.fst = xs.map value := by
    simp only [outs, List.map_map]
    conv_rhs => rw [← List.zipIdx_map_fst 0 xs, List.map_map]
    rfl
  have recorded : outs.flatMap Prod.snd =
      xs.zipIdx.flatMap fun y => errors (path ++ [.index y.2]) y.1 := by
    simp [outs, List.flatMap_map]
  rw [← values, ← recorded]
  exact completes_list path boundary nullable related

end Completion

/-! ### Lists of results of a built-in scalar -/

/-- What a result of a list shows at its index: its written value, or null. -/
def shown (json : Output → Json) : Except String Output → ResponseValue
  | .ok x => .leaf (json x)
  | .error _ => .null

/-- The error a result records at its path: none, or its message when it failed. -/
def resultError (fields : List Field) (path : Path) : Except String Output → List ResponseError
  | .ok _ => []
  | .error message => [itemFailure fields path { message }]

/-- The errors a list of results records: one per failed result, at its index, in index
order. -/
def resultErrors (fields : List Field) (path : Path) (rs : List (Except String Output)) :
    List ResponseError :=
  rs.zipIdx.flatMap fun y => resultError fields (path ++ [.index y.2]) y.1

/-- The context completes values of the scalar `T` of its schema through the runtime of the
dynamic schema `s` with the metadata `md`. -/
structure DynamicScalar (c : ExecContext (Session σ)) (s : ExecutableSchema σ) (md : Metadata)
    (T : String) : Prop where
  runtime : c.runtime = s.runtime md
  scalar : ∃ t, c.schema.type? T = some t ∧ t.kind = .scalar

namespace DynamicScalar

variable {c : ExecContext (Session σ)} {fields : List Field} {s : ExecutableSchema σ}
  {md : Metadata} {T : String} {json : Output → Json}

theorem completeNamed_written (leaf : DynamicScalar c s md T) {r : Resolved} {j : Json}
    (written : s.serialize T r = .ok j) (notNull : j ≠ .null) :
    completeNamed c T r = .value (.leaf j) := by
  obtain ⟨t, found, kind⟩ := leaf.scalar
  unfold completeNamed
  rw [found]
  simp only [kind, leaf.runtime, ExecutableSchema.runtime, written]

theorem completes_written (leaf : DynamicScalar c s md T) {x : Output}
    (written : s.Writes T json (.ok x)) (fuel : Nat) (p boundary : Path) :
    Completes c (fuel + 1) (.named T) fields (Output.itemOf x.owned).toResolved p boundary
        (.leaf (json x)) [] ∧
      Completes c (fuel + 2) (.nonNull (.named T)) fields (Output.itemOf x.owned).toResolved p
        boundary (.leaf (json x)) [] := by
  obtain ⟨serialized, notNull⟩ := written
  obtain ⟨present, clean⟩ := s.present_of_serialize serialized notNull
  have named : Completes c (fuel + 1) (.named T) fields (Output.itemOf x.owned).toResolved p
      boundary (.leaf (json x)) [] :=
    completes_leaf p boundary present clean (leaf.completeNamed_written serialized notNull)
  exact ⟨named, completes_nonNull present clean named⟩

theorem completes_result (leaf : DynamicScalar c s md T) {r : Except String Output}
    (written : s.Writes T json r) (fuel : Nat) (p : Path) :
    Completes c (fuel + 1) (.named T) fields (Output.resultItem r).toResolved p p (shown json r)
      (resultError fields p r) := by
  cases r with
  | ok x => exact (leaf.completes_written written fuel p p).1
  | error message =>
    have failed : (Output.resultItem (.error message)).toResolved = .itemError { message } := by
      simp [Output.resultItem, FieldValue.ofError, FieldValue.toResolved]
    rw [failed]
    exact completes_itemError fuel T { message } p p

theorem completes_results (leaf : DynamicScalar c s md T) {rs : List (Except String Output)}
    (written : ∀ r ∈ rs, s.Writes T json r) (fuel : Nat) (path boundary : Path) :
    Completes c (fuel + 3) (.list (.named T)) fields (Output.resolvedResults rs) path boundary
      (.list (rs.map (shown json))) (resultErrors fields path rs) :=
  completes_list_map rfl (fun r member p => leaf.completes_result (written r member) fuel p)
    path boundary

/-- A list of results whose items may not be null, with a failed result after the values
`oks`, is null: that result's error is the only one, and the list's subtree is marked nulled. -/
theorem results_stop (leaf : DynamicScalar c s md T) {oks : List Output} {message : String}
    {rest : List (Except String Output)} (written : ∀ x ∈ oks, s.Writes T json (.ok x))
    {path : Path} (nonempty : path ≠ []) (fuel : Nat) (boundary : Path)
    (st : ExecState (Session σ)) :
    (completeValue c (fuel + 4) (.list (.nonNull (.named T))) fields
        (Output.resolvedResults (oks.map .ok ++ .error message :: rest)) path boundary).run st =
      some (.null, { st with
        errors := st.errors.push (itemFailure fields (path ++ [.index oks.length]) { message })
        nullified := st.nullified ++ [path] }) := by
  have present : ∀ r ∈ oks.map fun x => (Output.itemOf x.owned).toResolved, ∃ v,
      v.isNull = false ∧ ∀ p, Completes c (fuel + 2) (.nonNull (.named T)) fields r p boundary v [] := by
    intro r member
    obtain ⟨x, ok, rfl⟩ := List.mem_map.mp member
    exact ⟨.leaf (json x), rfl, fun p => (leaf.completes_written (written x ok) fuel p boundary).2⟩
  have items : Output.resolvedResults (oks.map .ok ++ .error message :: rest) =
      .list (oks.map (fun x => (Output.itemOf x.owned).toResolved) ++
        .itemError { message } :: rest.map fun r => (Output.resultItem r).toResolved) := by
    simp [Output.resolvedResults, Output.resultItem, FieldValue.ofError, FieldValue.toResolved]
  rw [items]
  refine (completes_list_stops path boundary rfl nonempty
    (fun p st => nonNull_itemError (fuel + 1) T { message } p boundary st) present st).trans ?_
  simp

theorem completes_nested (leaf : DynamicScalar c s md T)
    {rss : List (List (Except String Output))} (written : ∀ rs ∈ rss, ∀ r ∈ rs, s.Writes T json r)
    (fuel : Nat) (path boundary : Path) :
    Completes c (fuel + 5) (.list (.list (.named T))) fields (.list (rss.map Output.resolvedResults))
      path boundary (.list (rss.map fun rs => .list (rs.map (shown json))))
      (rss.zipIdx.flatMap fun y => resultErrors fields (path ++ [.index y.2]) y.1) :=
  completes_list_map rfl (fun rs member p => leaf.completes_results (written rs member) fuel p p)
    path boundary

end DynamicScalar

variable {c : ExecContext (Session σ)} {fields : List Field} {s : ExecutableSchema σ}
  {md : Metadata} {T : String}

/-- Three results of `String`, the second failed. -/
def tagsResults : List (Except String Output) :=
  [.ok (.host (.str "a")), .error "boom", .ok (.host (.str "c"))]

/-- The field `Query.tags : [String]`, whose resolver returns `tagsResults`, consumed. -/
def tagsDef : FieldDef Unit where
  name := "tags"
  type := .list (.named "String")
  resolver := some (Resolver.ofExcept fun _ =>
    ((Output.list .any (tagsResults.map Output.ofResult)).owned).mapError .error)

/-- A schema with the field `Query.tags`. -/
def tagsSchema : ExecutableSchema Unit :=
  ⟨{ query := "Query", types := Schema.builtinTypes }, [("Query", [tagsDef])], []⟩

/-- The text a string output writes. -/
def textJson : Output → Json
  | .host (.str text) => .str text
  | _ => .null

/-- The node of the field `tags` in a query. -/
def tagsField : Field := ⟨"tags", "tags", [], [], [], ⟨1, 3⟩⟩

/-- A query that selects `tags`. -/
def tagsOperation : Operation := ⟨.query, "", [], [], [.field tagsField]⟩

/-- The context of that query on `tagsSchema`. -/
def tagsContext : ExecContext (Session Unit) :=
  ⟨tagsSchema.runtime [], tagsSchema.raw, ⟨[tagsOperation], []⟩, tagsOperation, []⟩

/-- The task resolving `tags` at the root. -/
def tagsTask : ResolveTask :=
  ⟨"Query", "tags", .null, [], [.key "tags"], [tagsField], ⟨[tagsOperation], []⟩⟩

end Exec

end GraphWeave
