import GraphWeave.Proofs.Execution.Batches

/-! Errors and nulls account for each other.

Every error of a run with data lies at a position of the data that is null or absent, or below
one. Conversely, a completion at a non-null type that comes out null leaves an error at its
path or below it: the null of a raw value is reported where it arises, and a null that rises
from an item, a field or a selection set was explained where it arose. The one null that no
error explains is the one a runtime gives when it serializes a leaf to null; a runtime that
never does so has every such null explained (`ValueRun.null_explained`). -/

namespace GraphWeave

/-- The runtime never serializes a leaf to null. -/
def Runtime.SerializesNonNull {σ : Type} (rt : Runtime σ) : Prop :=
  ∀ name r, rt.serialize name r ≠ .ok .null

namespace Exec

variable {σ : Type}

/-- An error is recorded at the path or below it. -/
def Explained (st : ExecState σ) (path : Path) : Prop :=
  ∃ e ∈ st.errors.toList, path <+: e.path

section Explained

variable {st st' : ExecState σ} {path : Path}

theorem Explained.mono {E M T} (explained : Explained st path) (added : Added st st' E M T) :
    Explained st' path := by
  obtain ⟨e, member, below⟩ := explained
  exact ⟨e, by simp [added.errors_eq, member], below⟩

theorem Explained.above {s : PathSegment} (explained : Explained st (path ++ [s])) :
    Explained st path := by
  obtain ⟨e, member, below⟩ := explained
  exact ⟨e, member, (List.prefix_append path [s]).trans below⟩

theorem explained_of_error (recorded : ∃ e : ResponseError, e.path = path ∧ Added st st' [e] [] []) :
    Explained st' path := by
  obtain ⟨e, at_path, added⟩ := recorded
  exact ⟨e, by simp [added.errors_eq], at_path ▸ List.prefix_refl _⟩

theorem explained_of_settle {fields : List Field} {result r : Resolved}
    (settled : (settle path fields result).run st = some (r, st')) (null : r.isNull = true)
    (present : result.isNull = false) : Explained st' path := by
  rcases settle_cases settled with ⟨_, _, _, recorded⟩ | ⟨_, rfl, -⟩
  · exact explained_of_error recorded
  · rw [null] at present
    cases present

end Explained

section Completions

variable {c : ExecContext σ}

mutual

theorem SelectionsRun.none_explained {path object selections source boundary st r st'}
    (run : SelectionsRun c object selections source path boundary st r st')
    (serializes : c.runtime.SerializesNonNull) (none : r = none) : Explained st' path := by
  match run with
  | .collect groups => exact groups.none_explained serializes none
termination_by structural run

theorem GroupsRun.none_explained {path object source boundary groups acc st r st'}
    (run : GroupsRun c object source path boundary groups acc st r st')
    (serializes : c.runtime.SerializesNonNull) (none : r = none) : Explained st' path := by
  match run with
  | .nil => cases none
  | .empty _ rest => exact rest.none_explained serializes none
  | .typename _ _ rest => exact rest.none_explained serializes none
  | .unknown _ _ _ _ rest => exact rest.none_explained serializes none
  | .pending _ _ _ _ rest => exact rest.none_explained serializes none
  | .value _ _ _ _ _ rest => exact rest.none_explained serializes none
  | .nulled _ _ _ field nonNull marked =>
    obtain ⟨_, _, _, added⟩ := added_markNullified marked
    exact ((field.null_explained serializes rfl nonNull).above).mono added
termination_by structural run

theorem FieldRun.null_explained {path object source fd fields boundary st outcome st'}
    (run : FieldRun c object source fd fields path boundary st outcome st')
    (serializes : c.runtime.SerializesNonNull) (null : outcome = .done .null)
    (nonNull : fd.type.isNonNull = true) : Explained st' path := by
  match run with
  | .argumentError _ recorded => exact explained_of_error (added_addError recorded)
  | .queued _ _ _ => cases null
  | .resolveError _ _ _ recorded => exact explained_of_error (added_addFieldError recorded)
  | .resolved _ _ _ value =>
    exact value.null_explained serializes (FieldOutcome.done.inj null) (.inl nonNull)
termination_by structural run

/-- A completion that comes out null at a non-null type, or from a present value, leaves an
error at its path or below it. -/
theorem ValueRun.null_explained {path type fields result boundary st v st'}
    (run : ValueRun c type fields result path boundary st v st')
    (serializes : c.runtime.SerializesNonNull) (null : v = .null)
    (owed : type.isNonNull = true ∨ result.isNull = false) : Explained st' path := by
  match run with
  | .nonNullNull _ _ reported =>
    obtain ⟨_, _, _, e, member, at_path⟩ := added_reportNull reported
    exact ⟨e, member, at_path ▸ List.prefix_refl _⟩
  | .nonNull _ present inner => exact inner.null_explained serializes null (.inr present)
  | .listNull settled null' | .namedNull settled null' =>
    exact explained_of_settle settled null' (owed.resolve_left (by simp [TypeRef.isNonNull]))
  | .list settled present list =>
    obtain ⟨-, rfl⟩ := settle_present settled present
    exact list.null_explained serializes null
  | .fail settled present _ recorded =>
    obtain ⟨-, rfl⟩ := settle_present settled present
    exact explained_of_error (added_addError recorded)
  | .raise settled present _ recorded =>
    obtain ⟨-, rfl⟩ := settle_present settled present
    exact explained_of_error (added_addFieldError recorded)
  | .leaf _ _ named =>
    rcases completeNamed_eq_value named with ⟨serialized, -⟩ | ⟨j, -, rfl⟩
    · exact absurd serialized (serializes _ _)
    · cases null
  | .object settled present _ object =>
    obtain ⟨-, rfl⟩ := settle_present settled present
    exact object.null_explained serializes null
termination_by structural run

theorem ListRun.null_explained {path inner fields result boundary st v st'}
    (run : ListRun c inner fields result path boundary st v st')
    (serializes : c.runtime.SerializesNonNull) (null : v = .null) : Explained st' path := by
  match run with
  | .items _ => cases null
  | .nulled items => exact items.none_explained serializes rfl
  | .notList _ recorded => exact explained_of_error (added_addError recorded)
termination_by structural run

theorem ItemsRun.none_explained {path inner fields boundary index items acc st r st'}
    (run : ItemsRun c inner fields path boundary index items acc st r st')
    (serializes : c.runtime.SerializesNonNull) (none : r = none) : Explained st' path := by
  match run with
  | .nil => cases none
  | .nulled item nonNull marked =>
    obtain ⟨_, _, _, added⟩ := added_markNullified marked
    exact ((item.null_explained serializes rfl (.inl nonNull)).above).mono added
  | .next _ _ rest => exact rest.none_explained serializes none
termination_by structural run

theorem ObjectRun.null_explained {path object fields result boundary st v st'}
    (run : ObjectRun c object fields result path boundary st v st')
    (serializes : c.runtime.SerializesNonNull) (null : v = .null) : Explained st' path := by
  match run with
  | .fields _ => cases null
  | .nulled selections => exact selections.none_explained serializes rfl
termination_by structural run

end

theorem completeValue_null_explained {fuel : Nat} {type : TypeRef} {fields : List Field}
    {result : Resolved} {path boundary : Path} {st st' : ExecState σ}
    (serializes : c.runtime.SerializesNonNull)
    (h : (completeValue c fuel type fields result path boundary).run st = some (.null, st'))
    (nonNull : type.isNonNull = true) : Explained st' path :=
  ((sound c fuel).value _ _ _ _ _ _ _ _ h).null_explained serializes rfl (.inl nonNull)

theorem executeField_null_explained {fuel : Nat} {object : Schema.NamedType} {source : Resolved}
    {fd : Schema.Field} {fields : List Field} {path boundary : Path} {st st' : ExecState σ}
    (serializes : c.runtime.SerializesNonNull)
    (h : (executeField c fuel object source fd fields path boundary).run st = some (.done .null, st'))
    (nonNull : fd.type.isNonNull = true) : Explained st' path :=
  ((sound c fuel).field _ _ _ _ _ _ _ _ _ h).null_explained serializes rfl nonNull

theorem completeResult_null_explained {fuel : Nat} {t : AsyncTask}
    {result : Except FieldError Resolved} {st st' : ExecState σ}
    (serializes : c.runtime.SerializesNonNull)
    (h : (completeResult c fuel t result).run st = some (.null, st'))
    (nonNull : t.type.isNonNull = true) : Explained st' t.task.path := by
  cases result with
  | error e =>
    simp only [completeResult, run_bind_eq_some, run_pure_eq_some] at h
    obtain ⟨⟨⟩, st₁, recorded, -, rfl⟩ := h
    exact explained_of_error (added_addFieldError recorded)
  | ok r => exact completeValue_null_explained serializes h nonNull

end Completions

end Exec

namespace Schema

open Exec

variable {σ : Type}

theorem execute_errors_nulled {s : Schema} {runtime : Runtime σ} {doc : Document}
    {operationName : String} {given : List (String × Value)} {root : Resolved} {host : σ}
    {d : ResponseValue} (data : (s.execute runtime doc operationName given root host).1.data = some d) :
    ∀ e ∈ (s.execute runtime doc operationName given root host).1.errors, d.nulledAt e.path := by
  obtain ⟨st, errors, inv⟩ := execute_consistent data
  rw [errors]
  exact inv.errors

end Schema

open Exec in
/-- Errors and nulls account for each other. Every error of a request that answers with data
lies at a position of the data that is null or absent, or below one. For a runtime that never
serializes a leaf to null, every completion at a non-null position that comes out null (of a
resolved value, of a field, or of a queued field's result) leaves an error at that position or
below it. -/
theorem errors_account_for_nulls {σ : Type} :
    (∀ (s : Schema) (runtime : Runtime σ) (doc : Document) (operationName : String)
        (given : List (String × Value)) (root : Resolved) (host : σ) (d : ResponseValue),
        (s.execute runtime doc operationName given root host).1.data = some d →
        ∀ e ∈ (s.execute runtime doc operationName given root host).1.errors,
          ∃ q, q <+: e.path ∧ (d.at? q = none ∨ d.at? q = some .null)) ∧
    (∀ c : ExecContext σ, c.runtime.SerializesNonNull → ∀ (fuel : Nat) (st st' : ExecState σ),
      (∀ type fields result path boundary,
        (completeValue c fuel type fields result path boundary).run st = some (.null, st') →
        type.isNonNull = true → ∃ e ∈ st'.errors.toList, path <+: e.path) ∧
      (∀ object source fd fields path boundary,
        (executeField c fuel object source fd fields path boundary).run st =
          some (.done .null, st') →
        fd.type.isNonNull = true → ∃ e ∈ st'.errors.toList, path <+: e.path) ∧
      (∀ t result, (completeResult c fuel t result).run st = some (.null, st') →
        t.type.isNonNull = true → ∃ e ∈ st'.errors.toList, t.task.path <+: e.path)) := by
  refine ⟨?_, fun c serializes fuel st st' => ⟨?_, ?_, ?_⟩⟩
  · intro s runtime doc operationName given root host d data e member
    exact ResponseValue.nulledAt_spec (Schema.execute_errors_nulled data e member)
  · intro type fields result path boundary h nonNull
    exact completeValue_null_explained serializes h nonNull
  · intro object source fd fields path boundary h nonNull
    exact executeField_null_explained serializes h nonNull
  · intro t result h nonNull
    exact completeResult_null_explained serializes h nonNull

/-! Requests on one field `v` of a query type, whose leaves a runtime serializes by a given
function. -/

/-- A query type with one field `v` of the given type, beside a custom scalar `Custom`. -/
def customScalarSchema (type : TypeRef) : Schema where
  query := "Query"
  types := [{ name := "Query", kind := .object, fields := [{ name := "v", type }] },
    { name := "Custom", kind := .scalar }]

/-- The operation `{ v }`. -/
def selectV : Operation := ⟨.query, "", [], [], [.field ⟨"v", "v", [], [], [], ⟨1, 3⟩⟩]⟩

/-- A runtime that resolves every field to the string `x` and serializes leaves by
`serialize`. -/
def leafRuntime (serialize : Resolved → Except FieldError Json) : Runtime Unit where
  resolve _ := pure (.ok (.single (.value (.str "x") "")))
  resolveBatch tasks := pure (tasks.map fun _ => .ok (.single (.value (.str "x") "")))
  resolveType _ _ := .error { message := "no object type" }
  serialize _ r := serialize r

/-- A leaf whose serialization fails: the nullable field `v` is null in the data, under its
error; and the non-null completions of the same runtime are explained. -/
theorem errors_account_for_failed_leaf :
    ((customScalarSchema (.named "Custom")).execute
        (leafRuntime fun _ => .error { message := "Custom cannot serialize x" })
        ⟨[selectV], []⟩ "" [] .null ()).1.data = some (.object [("v", .null)]) ∧
      (∀ e ∈ ((customScalarSchema (.named "Custom")).execute
        (leafRuntime fun _ => .error { message := "Custom cannot serialize x" })
        ⟨[selectV], []⟩ "" [] .null ()).1.errors,
          ∃ q, q <+: e.path ∧ ((ResponseValue.object [("v", .null)]).at? q = none ∨
            (ResponseValue.object [("v", .null)]).at? q = some .null)) ∧
      (leafRuntime fun _ => .error { message := "Custom cannot serialize x" }).SerializesNonNull ∧
      ∀ fuel st st',
        ∀ type fields result path boundary,
          (Exec.completeValue ⟨leafRuntime fun _ => .error { message := "Custom cannot serialize x" },
              customScalarSchema (.named "Custom"), ⟨[selectV], []⟩, selectV, []⟩
            fuel type fields result path boundary).run st = some (.null, st') →
          type.isNonNull = true → ∃ e ∈ st'.errors.toList, path <+: e.path := by
  have serializes : (leafRuntime fun _ => .error { message := "Custom cannot serialize x" }).SerializesNonNull :=
    fun _ _ => by simp [leafRuntime]
  exact ⟨by cbv, errors_account_for_nulls.1 _ _ _ _ _ _ _ _ (by cbv), serializes,
    fun fuel st st' => (errors_account_for_nulls.2 _ serializes fuel st st').1⟩

/-- A runtime that serializes a leaf to null leaves that null unexplained: the non-null field
`v` completes to null with no error recorded, and the request answers with null data and no
error at all. -/
theorem null_leaf_unexplained :
    (Exec.completeValue ⟨leafRuntime fun _ => .ok .null, customScalarSchema (.nonNull (.named "Custom")),
        ⟨[selectV], []⟩, selectV, []⟩ 2 (.nonNull (.named "Custom")) []
        (.single (.value (.str "x") "")) [.key "v"] []).run { host := () } =
        some (.null, { host := () }) ∧
      ((customScalarSchema (.nonNull (.named "Custom"))).execute (leafRuntime fun _ => .ok .null)
        ⟨[selectV], []⟩ "" [] .null ()).1.data = none ∧
      ((customScalarSchema (.nonNull (.named "Custom"))).execute (leafRuntime fun _ => .ok .null)
        ⟨[selectV], []⟩ "" [] .null ()).1.errors = [] := by
  refine ⟨?_, ?_, ?_⟩ <;> cbv

end GraphWeave
