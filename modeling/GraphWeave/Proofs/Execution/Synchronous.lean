import GraphWeave.Proofs.Execution.Conformance
import GraphWeave.Proofs.Execution.Coercion

/-! The schema with every field resolved at once.

Erasing the asynchronous marks of a schema changes nothing the executor reads besides the marks
themselves: types are found by the same names with the same kinds, input values coerce alike,
selections collect into the same groups, and values complete to the same kinds of result. So an
operation runs on the erased schema with the same variables, the same root type up to its marks,
and completions in the erased context meet the same choices as in the marked one. In the erased
context no field is ever queued (`ValueRun.queue_eq` and its siblings). -/

namespace GraphWeave

namespace Schema

/-- The field resolved at once. -/
def Field.eraseAsync (f : Field) : Field := { f with async := false }

/-- The type with every field resolved at once. -/
def NamedType.eraseAsync (t : NamedType) : NamedType :=
  { t with fields := t.fields.map Field.eraseAsync }

/-- The schema with every field resolved at once. -/
def eraseAsync (s : Schema) : Schema := { s with types := s.types.map NamedType.eraseAsync }

@[simp] theorem Field.eraseAsync_name (f : Field) : f.eraseAsync.name = f.name := rfl
@[simp] theorem Field.eraseAsync_type (f : Field) : f.eraseAsync.type = f.type := rfl
@[simp] theorem Field.eraseAsync_arguments (f : Field) : f.eraseAsync.arguments = f.arguments := rfl
@[simp] theorem Field.eraseAsync_async (f : Field) : f.eraseAsync.async = false := rfl

@[simp] theorem NamedType.eraseAsync_name (t : NamedType) : t.eraseAsync.name = t.name := rfl
@[simp] theorem NamedType.eraseAsync_kind (t : NamedType) : t.eraseAsync.kind = t.kind := rfl
@[simp] theorem NamedType.eraseAsync_interfaces (t : NamedType) :
    t.eraseAsync.interfaces = t.interfaces := rfl
@[simp] theorem NamedType.eraseAsync_possibleTypes (t : NamedType) :
    t.eraseAsync.possibleTypes = t.possibleTypes := rfl
@[simp] theorem NamedType.eraseAsync_inputFields (t : NamedType) :
    t.eraseAsync.inputFields = t.inputFields := rfl

@[simp] theorem Field.argument?_eraseAsync (f : Field) (name : String) :
    f.eraseAsync.argument? name = f.argument? name := rfl

theorem Field.eraseAsync_eraseAsync (f : Field) : f.eraseAsync.eraseAsync = f.eraseAsync := rfl

theorem NamedType.eraseAsync_eraseAsync (t : NamedType) :
    t.eraseAsync.eraseAsync = t.eraseAsync := by
  simp [NamedType.eraseAsync, Function.comp_def, Field.eraseAsync_eraseAsync]

theorem eraseAsync_eraseAsync (s : Schema) : s.eraseAsync.eraseAsync = s.eraseAsync := by
  simp [eraseAsync, Function.comp_def, NamedType.eraseAsync_eraseAsync]

theorem NamedType.field?_eraseAsync (t : NamedType) (name : String) :
    t.eraseAsync.field? name = (t.field? name).map Field.eraseAsync := by
  simp [NamedType.field?, NamedType.eraseAsync, List.find?_map, Function.comp_def]

theorem type?_eraseAsync (s : Schema) (name : String) :
    s.eraseAsync.type? name = (s.type? name).map NamedType.eraseAsync := by
  simp [type?, eraseAsync, List.find?_map, Function.comp_def]

@[simp] theorem eraseAsync_query (s : Schema) : s.eraseAsync.query = s.query := rfl
@[simp] theorem eraseAsync_mutation (s : Schema) : s.eraseAsync.mutation = s.mutation := rfl

theorem queryType?_eraseAsync (s : Schema) :
    s.eraseAsync.queryType? = s.queryType?.map NamedType.eraseAsync :=
  type?_eraseAsync s s.query

theorem mutationType?_eraseAsync (s : Schema) :
    s.eraseAsync.mutationType? = s.mutationType?.map NamedType.eraseAsync :=
  type?_eraseAsync s s.mutation

theorem isPossibleType_eraseAsync (s : Schema) :
    s.eraseAsync.isPossibleType = s.isPossibleType := by
  funext abstract object
  unfold isPossibleType
  simp only [type?_eraseAsync]
  cases s.type? abstract with
  | none => rfl
  | some t =>
    cases s.type? object <;> rfl

end Schema

end GraphWeave

namespace GraphWeave

open Schema

section Coercion

variable (s : Schema)

theorem coerceItems_eraseAsync {fuel : Nat} {inner : TypeRef}
    (same : ∀ v, coerceInput s.eraseAsync fuel v inner = coerceInput s fuel v inner) :
    ∀ index items, coerceItems s.eraseAsync fuel inner index items =
      coerceItems s fuel inner index items := by
  intro index items
  induction items generalizing index with
  | nil => rw [coerceItems, coerceItems]
  | cons v rest ih => rw [coerceItems, coerceItems, same v, ih]

theorem coerceFields_eraseAsync {fuel : Nat}
    (same : ∀ m < fuel, ∀ v t, coerceInput s.eraseAsync m v t = coerceInput s m v t)
    (type : String) (entries : List (String × Value)) :
    ∀ fields, coerceFields s.eraseAsync fuel type entries fields =
      coerceFields s fuel type entries fields := by
  intro fields
  induction fields with
  | nil => rw [coerceFields_nil, coerceFields_nil]
  | cons f rest ih =>
    cases fuel with
    | zero => rw [coerceFields, coerceFields]
    | succ m =>
      rw [coerceFields, coerceFields, ih]
      simp only [same m (Nat.lt_succ_self m)]

/-- Coercion reads only the input side of types, which erasing the marks leaves alone. -/
theorem coerceInput_eraseAsync (fuel : Nat) :
    ∀ v t, coerceInput s.eraseAsync fuel v t = coerceInput s fuel v t := by
  induction fuel using Nat.strong_induction_on with
  | _ fuel smaller =>
  have object : ∀ (t : NamedType) v, coerceObject s.eraseAsync fuel t.eraseAsync v =
      coerceObject s fuel t v := by
    intro t v
    unfold coerceObject
    split
    · simp only [coerceFields_eraseAsync s smaller]
      rfl
    · rfl
  intro v t
  induction t generalizing v with
  | nonNull inner ih =>
    by_cases present : v = .null
    · subst present
      simp
    · rw [coerceInput_nonNull _ _ _ present, coerceInput_nonNull _ _ _ present, ih]
  | list inner ih =>
    by_cases present : v = .null
    · subst present
      simp
    by_cases listed : ∃ items, v = .list items
    · obtain ⟨items, rfl⟩ := listed
      rw [coerceInput_list_items, coerceInput_list_items, coerceItems_eraseAsync s ih]
    · have single : ∀ items, v ≠ .list items := fun items same => listed ⟨items, same⟩
      rw [coerceInput_list_single _ _ _ present single, coerceInput_list_single _ _ _ present single,
        ih]
  | named name =>
    by_cases present : v = .null
    · subst present
      simp
    by_cases builtin : name ∈ builtinScalarNames
    · simp only [builtinScalarNames, List.mem_cons, List.not_mem_nil, or_false] at builtin
      rcases builtin with rfl | rfl | rfl | rfl | rfl
      · rw [coerceInput_int _ _ _ present, coerceInput_int _ _ _ present]
      · rw [coerceInput_float _ _ _ present, coerceInput_float _ _ _ present]
      · rw [coerceInput_string _ _ _ present, coerceInput_string _ _ _ present]
      · rw [coerceInput_boolean _ _ _ present, coerceInput_boolean _ _ _ present]
      · rw [coerceInput_id _ _ _ present, coerceInput_id _ _ _ present]
    · rw [coerceInput_defined _ _ _ present builtin, coerceInput_defined _ _ _ present builtin,
        type?_eraseAsync]
      cases s.type? name with
      | none => rfl
      | some t =>
        simp only [Option.map_some, NamedType.eraseAsync_kind]
        cases t.kind
        all_goals first | rfl | exact object t v

theorem defaultNesting_eraseAsync : s.eraseAsync.defaultNesting = s.defaultNesting := by
  simp [defaultNesting, eraseAsync, List.foldl_map]

theorem coerce_eraseAsync : s.eraseAsync.coerce = s.coerce := by
  funext v t
  rw [Schema.coerce, Schema.coerce, defaultNesting_eraseAsync, coerceInput_eraseAsync]

theorem coerceArguments_eraseAsync (vars : List (String × Value)) (fd : Schema.Field)
    (written : List (String × Literal)) :
    s.eraseAsync.coerceArguments vars fd.eraseAsync written = s.coerceArguments vars fd written := by
  have given : ∀ acc written, coerceArguments.given s.eraseAsync vars fd.eraseAsync acc written =
      coerceArguments.given s vars fd acc written := by
    intro acc written
    induction written generalizing acc with
    | nil => rfl
    | cons entry rest ih =>
      simp only [coerceArguments.given, coerce_eraseAsync, ih, Field.argument?_eraseAsync,
        Field.eraseAsync_name]
  have defaults : ∀ acc arguments, coerceArguments.defaults s.eraseAsync acc arguments =
      coerceArguments.defaults s acc arguments := by
    intro acc arguments
    induction arguments generalizing acc with
    | nil => rfl
    | cons argument rest ih => simp only [coerceArguments.defaults, coerce_eraseAsync, ih]
  simp only [coerceArguments, given, defaults, Field.eraseAsync_arguments]

theorem coerceVariables_eraseAsync (given : List (String × Value))
    (definitions : List VariableDefinition) :
    s.eraseAsync.coerceVariables given definitions = s.coerceVariables given definitions := by
  have go : ∀ acc definitions, coerceVariables.go s.eraseAsync given acc definitions =
      coerceVariables.go s given acc definitions := by
    intro acc definitions
    induction definitions generalizing acc with
    | nil => rfl
    | cons definition rest ih => simp only [coerceVariables.go, coerce_eraseAsync, ih]
  exact go [] definitions

end Coercion

namespace CollectContext

/-- Collecting on the erased schema: type conditions apply to the same object types. -/
theorem collectInto_eraseAsync (c : CollectContext) (object : String) (fuel : Nat)
    (acc : List FieldGroup × List String) (selections : List Selection) :
    CollectContext.collectInto ⟨c.schema.eraseAsync, c.document, c.variableValues⟩ object fuel acc
      selections = c.collectInto object fuel acc selections := by
  have applies : CollectContext.applies ⟨c.schema.eraseAsync, c.document, c.variableValues⟩ =
      c.applies := by
    funext object condition
    simp [applies, isPossibleType_eraseAsync]
  have includes : CollectContext.includes ⟨c.schema.eraseAsync, c.document, c.variableValues⟩ =
      c.includes := rfl
  match selections with
  | [] =>
    conv_lhs => rw [collectInto]
    conv_rhs => rw [collectInto]
  | .field g :: rest =>
    conv_lhs => rw [collectInto]
    conv_rhs => rw [collectInto]
    exact collectInto_eraseAsync c object fuel _ rest
  | .inline condition directives inner :: rest =>
    conv_lhs => rw [collectInto]
    conv_rhs => rw [collectInto]
    simp only [applies, collectInto_eraseAsync c object fuel _ inner]
    exact collectInto_eraseAsync c object fuel _ rest
  | .spread name directives :: rest =>
    conv_lhs => rw [collectInto]
    conv_rhs => rw [collectInto]
    rw [collectInto_eraseAsync c object fuel _ rest]
    congr 1
    simp only [applies, includes]
    split
    · rfl
    · cases c.document.fragment? name with
      | none => rfl
      | some frag =>
        cases fuel with
        | zero => rfl
        | succ fuel =>
          dsimp only
          rw [collectInto_eraseAsync c object fuel _ _]
termination_by (fuel, sizeOf selections)

end CollectContext

/-- The context of the same operation run on the erased schema. -/
def ExecContext.eraseAsync {σ : Type} (c : ExecContext σ) : ExecContext σ :=
  { c with schema := c.schema.eraseAsync }

/-- Erasing the marks keeps what each completion comes to, up to the marks of an object type. -/
def Exec.NamedCompletion.eraseAsync : Exec.NamedCompletion → Exec.NamedCompletion
  | .object o => .object o.eraseAsync
  | other => other

namespace Exec

variable {σ : Type} {c : ExecContext σ}

@[simp] theorem eraseAsync_schema : c.eraseAsync.schema = c.schema.eraseAsync := rfl
@[simp] theorem eraseAsync_runtime : c.eraseAsync.runtime = c.runtime := rfl
@[simp] theorem eraseAsync_document : c.eraseAsync.document = c.document := rfl
@[simp] theorem eraseAsync_operation : c.eraseAsync.operation = c.operation := rfl
@[simp] theorem eraseAsync_variableValues : c.eraseAsync.variableValues = c.variableValues := rfl

theorem eraseAsync_eraseAsync : c.eraseAsync.eraseAsync = c.eraseAsync := by
  simp [ExecContext.eraseAsync, Schema.eraseAsync_eraseAsync]

@[simp] theorem isSerial_eraseAsync (path : Path) : isSerial c.eraseAsync path = isSerial c path :=
  rfl

@[simp] theorem fieldTask_eraseAsync (object : Schema.NamedType) (source : Resolved)
    (fd : Schema.Field) (args : List (String × Value)) (fields : List Field) (path : Path) :
    fieldTask c.eraseAsync object.eraseAsync source fd.eraseAsync args fields path =
      fieldTask c object source fd args fields path := rfl

theorem collect_eraseAsync (object : String) (selections : List Selection) :
    (collectContext c.eraseAsync).collect object selections =
      (collectContext c).collect object selections := by
  simp only [CollectContext.collect, collectContext, eraseAsync_schema, eraseAsync_document,
    eraseAsync_variableValues]
  rw [CollectContext.collectInto_eraseAsync ⟨c.schema, c.document, c.variableValues⟩]

theorem completeNamed_eraseAsync (name : String) (r : Resolved) :
    completeNamed c.eraseAsync name r = (completeNamed c name r).eraseAsync := by
  rw [completeNamed, completeNamed, eraseAsync_schema, Schema.type?_eraseAsync]
  cases c.schema.type? name with
  | none => rfl
  | some t =>
    dsimp only [Option.map_some, eraseAsync_runtime]
    rw [Schema.NamedType.eraseAsync_kind]
    cases t.kind
    case scalar | enum =>
      cases c.runtime.serialize name r with
      | error e => rfl
      | ok j => cases j <;> rfl
    case interface | union =>
      dsimp only [Schema.NamedType.eraseAsync_name]
      cases c.runtime.resolveType t.name r with
      | error e => rfl
      | ok typeName =>
        dsimp only
        rw [Schema.type?_eraseAsync, Schema.isPossibleType_eraseAsync]
        cases c.schema.type? typeName with
        | none => rfl
        | some o =>
          dsimp only [Option.map_some]
          rw [Schema.NamedType.eraseAsync_kind]
          cases o.kind
          case object =>
            by_cases possible : c.schema.isPossibleType t.name typeName = true <;>
              simp [possible, NamedCompletion.eraseAsync]
          all_goals rfl
    all_goals rfl

theorem async_of_erased {o : Schema.NamedType} (erased : o.eraseAsync = o) {name : String}
    {fd : Schema.Field} (found : o.field? name = some fd) : fd.async = false := by
  rw [← erased, Schema.NamedType.field?_eraseAsync] at found
  obtain ⟨fd', -, rfl⟩ := Option.map_eq_some_iff.mp found
  rfl

theorem erased_of_completeNamed {name : String} {r : Resolved} {o : Schema.NamedType}
    (h : completeNamed c.eraseAsync name r = .object o) : o.eraseAsync = o := by
  rw [completeNamed_eraseAsync] at h
  cases named : completeNamed c name r with
  | object o' =>
    simp only [named, NamedCompletion.eraseAsync, NamedCompletion.object.injEq] at h
    subst h
    exact Schema.NamedType.eraseAsync_eraseAsync o'
  | fail _ | raise _ | value _ => simp [named, NamedCompletion.eraseAsync] at h

theorem Added.queue_eq_nil {st st' : ExecState σ} {E M} (added : Added st st' E M []) :
    st'.queue.toList = st.queue.toList := by
  simpa using added.queue_eq

mutual

theorem SelectionsRun.queue_eq {object selections source path boundary st r st'}
    (run : SelectionsRun c.eraseAsync object selections source path boundary st r st')
    (erased : object.eraseAsync = object) : st'.queue.toList = st.queue.toList := by
  match run with
  | .collect groups => exact groups.queue_eq erased
termination_by structural run

theorem GroupsRun.queue_eq {object source path boundary groups acc st r st'}
    (run : GroupsRun c.eraseAsync object source path boundary groups acc st r st')
    (erased : object.eraseAsync = object) : st'.queue.toList = st.queue.toList := by
  match run with
  | .nil => rfl
  | .empty _ rest | .typename _ _ rest => exact rest.queue_eq erased
  | .unknown _ _ _ recorded rest =>
    obtain ⟨_, _, added⟩ := added_addError recorded
    rw [rest.queue_eq erased, added.queue_eq_nil]
  | .pending _ _ found field rest | .value _ _ found field _ rest =>
    rw [rest.queue_eq erased, field.queue_eq (async_of_erased erased found)]
  | .nulled _ _ found field _ marked =>
    obtain ⟨_, _, _, added⟩ := added_markNullified marked
    rw [added.queue_eq_nil, field.queue_eq (async_of_erased erased found)]
termination_by structural run

theorem FieldRun.queue_eq {object source fd fields path boundary st outcome st'}
    (run : FieldRun c.eraseAsync object source fd fields path boundary st outcome st')
    (sync : fd.async = false) : st'.queue.toList = st.queue.toList := by
  match run with
  | .argumentError _ recorded =>
    obtain ⟨_, _, added⟩ := added_addError recorded
    exact added.queue_eq_nil
  | .queued _ batched _ => simp [sync] at batched
  | .resolveError _ _ resolved recorded =>
    obtain ⟨_, _, added⟩ := added_addFieldError recorded
    rw [added.queue_eq_nil, (added_resolve resolved).queue_eq_nil]
  | .resolved _ _ resolved value => rw [value.queue_eq, (added_resolve resolved).queue_eq_nil]
termination_by structural run

theorem ValueRun.queue_eq {type fields result path boundary st v st'}
    (run : ValueRun c.eraseAsync type fields result path boundary st v st') :
    st'.queue.toList = st.queue.toList := by
  match run with
  | .nonNullNull settled _ reported =>
    obtain ⟨_, _, settledAdded⟩ := added_settle settled
    obtain ⟨_, _, added, -⟩ := added_reportNull reported
    rw [added.queue_eq_nil, settledAdded.queue_eq_nil]
  | .listNull settled _ | .namedNull settled _ | .leaf settled _ _ =>
    obtain ⟨_, _, added⟩ := added_settle settled
    exact added.queue_eq_nil
  | .nonNull settled _ inner =>
    obtain ⟨_, _, added⟩ := added_settle settled
    rw [inner.queue_eq, added.queue_eq_nil]
  | .list settled _ completed =>
    obtain ⟨_, _, added⟩ := added_settle settled
    rw [completed.queue_eq, added.queue_eq_nil]
  | .fail settled _ _ recorded =>
    obtain ⟨_, _, settledAdded⟩ := added_settle settled
    obtain ⟨_, _, added⟩ := added_addError recorded
    rw [added.queue_eq_nil, settledAdded.queue_eq_nil]
  | .raise settled _ _ recorded =>
    obtain ⟨_, _, settledAdded⟩ := added_settle settled
    obtain ⟨_, _, added⟩ := added_addFieldError recorded
    rw [added.queue_eq_nil, settledAdded.queue_eq_nil]
  | .object settled _ named completed =>
    obtain ⟨_, _, added⟩ := added_settle settled
    rw [completed.queue_eq (erased_of_completeNamed named), added.queue_eq_nil]
termination_by structural run

theorem ListRun.queue_eq {inner fields result path boundary st v st'}
    (run : ListRun c.eraseAsync inner fields result path boundary st v st') :
    st'.queue.toList = st.queue.toList := by
  match run with
  | .items items | .nulled items => exact items.queue_eq
  | .notList _ recorded =>
    obtain ⟨_, _, added⟩ := added_addError recorded
    exact added.queue_eq_nil
termination_by structural run

theorem ItemsRun.queue_eq {inner fields path boundary index items acc st r st'}
    (run : ItemsRun c.eraseAsync inner fields path boundary index items acc st r st') :
    st'.queue.toList = st.queue.toList := by
  match run with
  | .nil => rfl
  | .nulled item _ marked =>
    obtain ⟨_, _, _, added⟩ := added_markNullified marked
    rw [added.queue_eq_nil, item.queue_eq]
  | .next item _ rest => rw [rest.queue_eq, item.queue_eq]
termination_by structural run

theorem ObjectRun.queue_eq {object fields result path boundary st v st'}
    (run : ObjectRun c.eraseAsync object fields result path boundary st v st')
    (erased : object.eraseAsync = object) : st'.queue.toList = st.queue.toList := by
  match run with
  | .fields selections | .nulled selections => exact selections.queue_eq erased
termination_by structural run

end

end Exec

end GraphWeave
