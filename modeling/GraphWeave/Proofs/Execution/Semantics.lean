import GraphWeave.Execution.Executor
import Mathlib

/-! The executor's completions as a big-step relation, one rule for each way a step of the
code can go, with the budget left out. Every run that finishes within its budget is a
derivation of the relation, so properties of completions are proved by rule induction. -/

namespace GraphWeave

theorem ResponseValue.eq_null_of_isNull {v : ResponseValue} (null : v.isNull = true) :
    v = .null := by
  cases v <;> simp_all [ResponseValue.isNull]

namespace Exec

variable {σ α β : Type}

theorem run_bind_eq_some {x : Exec σ α} {f : α → Exec σ β} {st : ExecState σ} {b : β}
    {st'' : ExecState σ} :
    (x >>= f).run st = some (b, st'') ↔
      ∃ a st', x.run st = some (a, st') ∧ (f a).run st' = some (b, st'') := by
  simp only [StateT.run_bind]
  constructor
  · intro h
    obtain ⟨⟨a, st'⟩, hx, hf⟩ := Option.bind_eq_some_iff.mp h
    exact ⟨a, st', hx, hf⟩
  · rintro ⟨a, st', hx, hf⟩
    exact Option.bind_eq_some_iff.mpr ⟨(a, st'), hx, hf⟩

@[simp]
theorem run_pure_eq_some {a b : α} {st st' : ExecState σ} :
    (pure a : Exec σ α).run st = some (b, st') ↔ a = b ∧ st = st' := by
  simp [StateT.run_pure]

@[simp]
theorem run_failure_ne_some {b : α} {st st' : ExecState σ} :
    (failure : Exec σ α).run st ≠ some (b, st') := by
  simp [StateT.run, failure, StateT.failure]

/-- The task that resolves a field of an object at a path. -/
def fieldTask (c : ExecContext σ) (object : Schema.NamedType) (source : Resolved)
    (fd : Schema.Field) (args : List (String × Value)) (fields : List Field) (path : Path) :
    ResolveTask :=
  ⟨object.name, fd.name, source, args, path, fields, c.document⟩

/-- The nearest nullable position a field's null goes to: the field itself when it is nullable. -/
def boundaryOf (type : TypeRef) (boundary path : Path) : Path :=
  if type.isNonNull then boundary else path

mutual

/-- Running a selection set on an object value. -/
inductive SelectionsRun (c : ExecContext σ) :
    Schema.NamedType → List Selection → Resolved → Path → Path →
      ExecState σ → Option (List (String × ResponseValue)) → ExecState σ → Prop
  | collect {object selections source path boundary st r st'} :
      GroupsRun c object source path boundary ((collectContext c).collect object.name selections)
        [] st r st' →
      SelectionsRun c object selections source path boundary st r st'

/-- Running field groups in order after the fields already completed. -/
inductive GroupsRun (c : ExecContext σ) :
    Schema.NamedType → Resolved → Path → Path → List FieldGroup → List (String × ResponseValue) →
      ExecState σ → Option (List (String × ResponseValue)) → ExecState σ → Prop
  | nil {object source path boundary acc st} :
      GroupsRun c object source path boundary [] acc st (some acc) st
  | empty {object source path boundary g rest acc st r st'} :
      g.fields = [] →
      GroupsRun c object source path boundary rest acc st r st' →
      GroupsRun c object source path boundary (g :: rest) acc st r st'
  | typename {object source path boundary g rest acc st r st' first others} :
      g.fields = first :: others → first.name = "__typename" →
      GroupsRun c object source path boundary rest (acc ++ [(g.key, .leaf (.str object.name))])
        st r st' →
      GroupsRun c object source path boundary (g :: rest) acc st r st'
  | unknown {object source path boundary g rest acc st st₁ r st' first others} :
      g.fields = first :: others → first.name ≠ "__typename" → object.field? first.name = none →
      (addError ("Cannot query field '" ++ first.name ++ "' on type '" ++ object.name ++ "'")
        (path ++ [.key g.key]) g.fields).run st = some (⟨⟩, st₁) →
      GroupsRun c object source path boundary rest acc st₁ r st' →
      GroupsRun c object source path boundary (g :: rest) acc st r st'
  | pending {object source path boundary g rest acc st st₁ r st' first others fd} :
      g.fields = first :: others → first.name ≠ "__typename" → object.field? first.name = some fd →
      FieldRun c object source fd g.fields (path ++ [.key g.key])
        (boundaryOf fd.type boundary (path ++ [.key g.key])) st .pending st₁ →
      GroupsRun c object source path boundary rest (acc ++ [(g.key, .pending)]) st₁ r st' →
      GroupsRun c object source path boundary (g :: rest) acc st r st'
  | nulled {object source path boundary g rest acc st st₁ st' first others fd} :
      g.fields = first :: others → first.name ≠ "__typename" → object.field? first.name = some fd →
      FieldRun c object source fd g.fields (path ++ [.key g.key])
        (boundaryOf fd.type boundary (path ++ [.key g.key])) st (.done .null) st₁ →
      fd.type.isNonNull = true →
      (markNullified path).run st₁ = some (⟨⟩, st') →
      GroupsRun c object source path boundary (g :: rest) acc st none st'
  | value {object source path boundary g rest acc st st₁ r st' first others fd v} :
      g.fields = first :: others → first.name ≠ "__typename" → object.field? first.name = some fd →
      FieldRun c object source fd g.fields (path ++ [.key g.key])
        (boundaryOf fd.type boundary (path ++ [.key g.key])) st (.done v) st₁ →
      (v.isNull = true → fd.type.isNonNull = false) →
      GroupsRun c object source path boundary rest (acc ++ [(g.key, v)]) st₁ r st' →
      GroupsRun c object source path boundary (g :: rest) acc st r st'

/-- Running one field: coercing its arguments, then queuing it or resolving and completing it. -/
inductive FieldRun (c : ExecContext σ) :
    Schema.NamedType → Resolved → Schema.Field → List Field → Path → Path →
      ExecState σ → FieldOutcome → ExecState σ → Prop
  | argumentError {object source fd fields path boundary st st' e} :
      c.schema.coerceArguments c.variableValues fd (writtenArguments fields) = .error e →
      (addError e.message path fields).run st = some (⟨⟩, st') →
      FieldRun c object source fd fields path boundary st (.done .null) st'
  | queued {object source fd fields path boundary st st' args} :
      c.schema.coerceArguments c.variableValues fd (writtenArguments fields) = .ok args →
      (fd.async && !isSerial c path) = true →
      (enqueue ⟨fieldTask c object source fd args fields path, fd.type, boundary⟩).run st =
        some (⟨⟩, st') →
      FieldRun c object source fd fields path boundary st .pending st'
  | resolveError {object source fd fields path boundary st st₁ st' args e} :
      c.schema.coerceArguments c.variableValues fd (writtenArguments fields) = .ok args →
      (fd.async && !isSerial c path) = false →
      (resolve c (fieldTask c object source fd args fields path)).run st = some (.error e, st₁) →
      (addFieldError e path fields).run st₁ = some (⟨⟩, st') →
      FieldRun c object source fd fields path boundary st (.done .null) st'
  | resolved {object source fd fields path boundary st st₁ st' args result v} :
      c.schema.coerceArguments c.variableValues fd (writtenArguments fields) = .ok args →
      (fd.async && !isSerial c path) = false →
      (resolve c (fieldTask c object source fd args fields path)).run st = some (.ok result, st₁) →
      ValueRun c fd.type fields result path boundary st₁ v st' →
      FieldRun c object source fd fields path boundary st (.done v) st'

/-- Completing a resolved value at a type, after its item error, if any, is recorded. -/
inductive ValueRun (c : ExecContext σ) :
    TypeRef → List Field → Resolved → Path → Path → ExecState σ → ResponseValue → ExecState σ →
      Prop
  | nonNullNull {inner fields result path boundary st st₁ st' r} :
      (settle path fields result).run st = some (r, st₁) → r.isNull = true →
      (reportNull path fields).run st₁ = some (⟨⟩, st') →
      ValueRun c (.nonNull inner) fields result path boundary st .null st'
  | nonNull {inner fields result path boundary st st₁ st' r v} :
      (settle path fields result).run st = some (r, st₁) → r.isNull = false →
      ValueRun c inner fields r path boundary st₁ v st' →
      ValueRun c (.nonNull inner) fields result path boundary st v st'
  | listNull {inner fields result path boundary st st' r} :
      (settle path fields result).run st = some (r, st') → r.isNull = true →
      ValueRun c (.list inner) fields result path boundary st .null st'
  | list {inner fields result path boundary st st₁ st' r v} :
      (settle path fields result).run st = some (r, st₁) → r.isNull = false →
      ListRun c inner fields r path boundary st₁ v st' →
      ValueRun c (.list inner) fields result path boundary st v st'
  | namedNull {name fields result path boundary st st' r} :
      (settle path fields result).run st = some (r, st') → r.isNull = true →
      ValueRun c (.named name) fields result path boundary st .null st'
  | fail {name fields result path boundary st st₁ st' r message} :
      (settle path fields result).run st = some (r, st₁) → r.isNull = false →
      completeNamed c name r = .fail message →
      (addError message path fields).run st₁ = some (⟨⟩, st') →
      ValueRun c (.named name) fields result path boundary st .null st'
  | raise {name fields result path boundary st st₁ st' r e} :
      (settle path fields result).run st = some (r, st₁) → r.isNull = false →
      completeNamed c name r = .raise e →
      (addFieldError e path fields).run st₁ = some (⟨⟩, st') →
      ValueRun c (.named name) fields result path boundary st .null st'
  | leaf {name fields result path boundary st st' r v} :
      (settle path fields result).run st = some (r, st') → r.isNull = false →
      completeNamed c name r = .value v →
      ValueRun c (.named name) fields result path boundary st v st'
  | object {name fields result path boundary st st₁ st' r o v} :
      (settle path fields result).run st = some (r, st₁) → r.isNull = false →
      completeNamed c name r = .object o →
      ObjectRun c o fields r path boundary st₁ v st' →
      ValueRun c (.named name) fields result path boundary st v st'

/-- Completing a value at a list type. -/
inductive ListRun (c : ExecContext σ) :
    TypeRef → List Field → Resolved → Path → Path → ExecState σ → ResponseValue → ExecState σ →
      Prop
  | items {inner fields path boundary st st' items vs} :
      ItemsRun c inner fields path boundary 0 items [] st (some vs) st' →
      ListRun c inner fields (.list items) path boundary st (.list vs) st'
  | nulled {inner fields path boundary st st' items} :
      ItemsRun c inner fields path boundary 0 items [] st none st' →
      ListRun c inner fields (.list items) path boundary st .null st'
  | notList {inner fields result path boundary st st'} :
      (∀ items, result ≠ .list items) →
      (addError ("Expected list value, got " ++ result.typeName) path fields).run st =
        some (⟨⟩, st') →
      ListRun c inner fields result path boundary st .null st'

/-- Completing list items from an index on, after the items already completed. -/
inductive ItemsRun (c : ExecContext σ) :
    TypeRef → List Field → Path → Path → Nat → List Resolved → List ResponseValue →
      ExecState σ → Option (List ResponseValue) → ExecState σ → Prop
  | nil {inner fields path boundary index acc st} :
      ItemsRun c inner fields path boundary index [] acc st (some acc) st
  | nulled {inner fields path boundary index item rest acc st st₁ st'} :
      ValueRun c inner fields item (path ++ [.index index])
        (boundaryOf inner boundary (path ++ [.index index])) st .null st₁ →
      inner.isNonNull = true →
      (markNullified path).run st₁ = some (⟨⟩, st') →
      ItemsRun c inner fields path boundary index (item :: rest) acc st none st'
  | next {inner fields path boundary index item rest acc st st₁ r st' v} :
      ValueRun c inner fields item (path ++ [.index index])
        (boundaryOf inner boundary (path ++ [.index index])) st v st₁ →
      (v.isNull = true → inner.isNonNull = false) →
      ItemsRun c inner fields path boundary (index + 1) rest (acc ++ [v]) st₁ r st' →
      ItemsRun c inner fields path boundary index (item :: rest) acc st r st'

/-- Completing an object value by its merged sub-selections. -/
inductive ObjectRun (c : ExecContext σ) :
    Schema.NamedType → List Field → Resolved → Path → Path → ExecState σ → ResponseValue →
      ExecState σ → Prop
  | fields {object fields result path boundary st st' fs} :
      SelectionsRun c object (mergeSelections fields) result path boundary st (some fs) st' →
      ObjectRun c object fields result path boundary st (.object fs) st'
  | nulled {object fields result path boundary st st'} :
      SelectionsRun c object (mergeSelections fields) result path boundary st none st' →
      ObjectRun c object fields result path boundary st .null st'

end

/-! Every run that finishes within its budget is a derivation. The budget is the induction: at
each budget the completions are taken in the order in which they call each other. -/

/-- Runs of `completeValue` within a budget are derivations. -/
def ValueSound (c : ExecContext σ) (n : Nat) : Prop :=
  ∀ type fields result path boundary st v st',
    (completeValue c n type fields result path boundary).run st = some (v, st') →
    ValueRun c type fields result path boundary st v st'

/-- Runs of `completeList` within a budget are derivations. -/
def ListSound (c : ExecContext σ) (n : Nat) : Prop :=
  ∀ inner fields result path boundary st v st',
    (completeList c n inner fields result path boundary).run st = some (v, st') →
    ListRun c inner fields result path boundary st v st'

/-- Runs of `completeItems` within a budget are derivations. -/
def ItemsSound (c : ExecContext σ) (n : Nat) : Prop :=
  ∀ inner fields path boundary index items acc st r st',
    (completeItems c n inner fields path boundary index items acc).run st = some (r, st') →
    ItemsRun c inner fields path boundary index items acc st r st'

/-- Runs of `completeObject` within a budget are derivations. -/
def ObjectSound (c : ExecContext σ) (n : Nat) : Prop :=
  ∀ object fields result path boundary st v st',
    (completeObject c n object fields result path boundary).run st = some (v, st') →
    ObjectRun c object fields result path boundary st v st'

/-- Runs of `executeSelections` within a budget are derivations. -/
def SelectionsSound (c : ExecContext σ) (n : Nat) : Prop :=
  ∀ object selections source path boundary st r st',
    (executeSelections c n object selections source path boundary).run st = some (r, st') →
    SelectionsRun c object selections source path boundary st r st'

/-- Runs of `executeGroups` within a budget are derivations. -/
def GroupsSound (c : ExecContext σ) (n : Nat) : Prop :=
  ∀ object source path boundary groups acc st r st',
    (executeGroups c n object source path boundary groups acc).run st = some (r, st') →
    GroupsRun c object source path boundary groups acc st r st'

/-- Runs of `executeField` within a budget are derivations. -/
def FieldSound (c : ExecContext σ) (n : Nat) : Prop :=
  ∀ object source fd fields path boundary st r st',
    (executeField c n object source fd fields path boundary).run st = some (r, st') →
    FieldRun c object source fd fields path boundary st r st'

variable {c : ExecContext σ} {n : Nat}

theorem valueSound_zero : ValueSound c 0 := by
  intro type fields result path boundary st v st' h
  rw [completeValue] at h
  exact absurd h run_failure_ne_some

theorem valueSound_succ (value : ValueSound c n) (list : ListSound c n)
    (object : ObjectSound c n) : ValueSound c (n + 1) := by
  intro type fields result path boundary st v st' h
  rw [completeValue, run_bind_eq_some] at h
  obtain ⟨r, st₁, settled, h⟩ := h
  cases type with
  | nonNull inner =>
    by_cases null : r.isNull = true
    · simp only [null, if_true, run_bind_eq_some, run_pure_eq_some] at h
      obtain ⟨⟨⟩, st₂, reported, rfl, rfl⟩ := h
      exact .nonNullNull settled null reported
    · simp only [null] at h
      exact .nonNull settled (by simpa using null) (value _ _ _ _ _ _ _ _ h)
  | list inner =>
    by_cases null : r.isNull = true
    · simp only [null, if_true, run_pure_eq_some] at h
      obtain ⟨rfl, rfl⟩ := h
      exact .listNull settled null
    · simp only [null] at h
      exact .list settled (by simpa using null) (list _ _ _ _ _ _ _ _ h)
  | named name =>
    by_cases null : r.isNull = true
    · simp only [null, if_true, run_pure_eq_some] at h
      obtain ⟨rfl, rfl⟩ := h
      exact .namedNull settled null
    · have present : r.isNull = false := by simpa using null
      simp only [present, Bool.false_eq_true, if_false] at h
      cases named : completeNamed c name r with
      | fail message =>
        simp only [named, run_bind_eq_some, run_pure_eq_some] at h
        obtain ⟨⟨⟩, st₂, added, rfl, rfl⟩ := h
        exact .fail settled present named added
      | raise e =>
        simp only [named, run_bind_eq_some, run_pure_eq_some] at h
        obtain ⟨⟨⟩, st₂, added, rfl, rfl⟩ := h
        exact .raise settled present named added
      | value w =>
        simp only [named, run_pure_eq_some] at h
        obtain ⟨rfl, rfl⟩ := h
        exact .leaf settled present named
      | object o =>
        simp only [named] at h
        exact .object settled present named (object _ _ _ _ _ _ _ _ h)

theorem listSound_zero : ListSound c 0 := by
  intro inner fields result path boundary st v st' h
  rw [completeList] at h
  exact absurd h run_failure_ne_some

theorem listSound_succ (items : ItemsSound c n) : ListSound c (n + 1) := by
  intro inner fields result path boundary st v st' h
  unfold completeList at h
  split at h
  · rename_i elements
    simp only [run_bind_eq_some] at h
    obtain ⟨r, st₁, completed, h⟩ := h
    cases r with
    | some vs =>
      simp only [run_pure_eq_some] at h
      obtain ⟨rfl, rfl⟩ := h
      exact .items (items _ _ _ _ _ _ _ _ _ _ completed)
    | none =>
      simp only [run_pure_eq_some] at h
      obtain ⟨rfl, rfl⟩ := h
      exact .nulled (items _ _ _ _ _ _ _ _ _ _ completed)
  · rename_i notList
    simp only [run_bind_eq_some, run_pure_eq_some] at h
    obtain ⟨⟨⟩, st₁, added, rfl, rfl⟩ := h
    exact .notList (fun elements same => notList elements same) added

/-- Items complete one after another at the same budget, so the list is the induction. -/
theorem itemsSound (value : ValueSound c n) : ItemsSound c n := by
  intro inner fields path boundary index items
  induction items generalizing index with
  | nil =>
    intro acc st r st' h
    rw [completeItems, run_pure_eq_some] at h
    obtain ⟨rfl, rfl⟩ := h
    exact .nil
  | cons item rest ih =>
    intro acc st r st' h
    rw [completeItems, run_bind_eq_some] at h
    obtain ⟨v, st₁, completed, h⟩ := h
    have derived := value _ _ _ _ _ _ _ _ completed
    by_cases null : v.isNull = true
    · have same := ResponseValue.eq_null_of_isNull null
      subst same
      by_cases nonNull : inner.isNonNull = true
      · simp only [null, nonNull, if_true, run_bind_eq_some, run_pure_eq_some] at h
        obtain ⟨⟨⟩, st₂, marked, rfl, rfl⟩ := h
        exact .nulled derived nonNull marked
      · simp only [null, nonNull, if_true, Bool.false_eq_true, if_false] at h
        exact .next derived (fun _ => by simpa using nonNull) (ih _ _ _ _ _ h)
    · have present : v.isNull = false := by simpa using null
      simp only [present, Bool.false_eq_true, if_false] at h
      exact .next derived (by simp [present]) (ih _ _ _ _ _ h)

theorem objectSound_zero : ObjectSound c 0 := by
  intro object fields result path boundary st v st' h
  rw [completeObject] at h
  exact absurd h run_failure_ne_some

theorem objectSound_succ (selections : SelectionsSound c n) : ObjectSound c (n + 1) := by
  intro object fields result path boundary st v st' h
  rw [completeObject, run_bind_eq_some] at h
  obtain ⟨r, st₁, ran, h⟩ := h
  cases r with
  | some fs =>
    simp only [run_pure_eq_some] at h
    obtain ⟨rfl, rfl⟩ := h
    exact .fields (selections _ _ _ _ _ _ _ _ ran)
  | none =>
    simp only [run_pure_eq_some] at h
    obtain ⟨rfl, rfl⟩ := h
    exact .nulled (selections _ _ _ _ _ _ _ _ ran)

theorem selectionsSound_zero : SelectionsSound c 0 := by
  intro object selections source path boundary st r st' h
  rw [executeSelections] at h
  exact absurd h run_failure_ne_some

theorem selectionsSound_succ (groups : GroupsSound c n) : SelectionsSound c (n + 1) := by
  intro object selections source path boundary st r st' h
  rw [executeSelections] at h
  exact .collect (groups _ _ _ _ _ _ _ _ _ h)

theorem fieldSound_zero : FieldSound c 0 := by
  intro object source fd fields path boundary st r st' h
  rw [executeField] at h
  exact absurd h run_failure_ne_some

theorem fieldSound_succ (value : ValueSound c n) : FieldSound c (n + 1) := by
  intro object source fd fields path boundary st r st' h
  rw [executeField] at h
  cases coerced : c.schema.coerceArguments c.variableValues fd (writtenArguments fields) with
  | error e =>
    simp only [coerced, run_bind_eq_some, run_pure_eq_some] at h
    obtain ⟨⟨⟩, st₁, added, rfl, rfl⟩ := h
    exact .argumentError coerced added
  | ok args =>
    simp only [coerced] at h
    by_cases batched : (fd.async && !isSerial c path) = true
    · simp only [batched, if_true, run_bind_eq_some, run_pure_eq_some] at h
      obtain ⟨⟨⟩, st₁, queued, rfl, rfl⟩ := h
      exact .queued coerced batched queued
    · have now : (fd.async && !isSerial c path) = false := by simpa using batched
      simp only [now, Bool.false_eq_true, if_false, run_bind_eq_some] at h
      obtain ⟨answer, st₁, resolved, h⟩ := h
      cases answer with
      | error e =>
        simp only [run_bind_eq_some, run_pure_eq_some] at h
        obtain ⟨⟨⟩, st₂, added, rfl, rfl⟩ := h
        exact .resolveError coerced now resolved added
      | ok result =>
        simp only [run_bind_eq_some, run_pure_eq_some] at h
        obtain ⟨w, st₂, completed, rfl, rfl⟩ := h
        exact .resolved coerced now resolved (value _ _ _ _ _ _ _ _ completed)

/-- Groups run one after another at the same budget, so the list is the induction. -/
theorem groupsSound (field : FieldSound c n) : GroupsSound c n := by
  intro object source path boundary groups
  induction groups with
  | nil =>
    intro acc st r st' h
    rw [executeGroups, run_pure_eq_some] at h
    obtain ⟨rfl, rfl⟩ := h
    exact .nil
  | cons g rest ih =>
    intro acc st r st' h
    rw [executeGroups] at h
    cases fieldsEq : g.fields with
    | nil =>
      simp only [fieldsEq] at h
      exact .empty fieldsEq (ih _ _ _ _ h)
    | cons first others =>
      simp only [fieldsEq] at h
      by_cases typename : first.name = "__typename"
      · simp only [typename, BEq.rfl, if_true] at h
        exact .typename fieldsEq typename (ih _ _ _ _ h)
      · have differs : (first.name == "__typename") = false := by simpa using typename
        simp only [differs, Bool.false_eq_true, if_false] at h
        cases found : object.field? first.name with
        | none =>
          simp only [found, run_bind_eq_some] at h
          obtain ⟨⟨⟩, st₁, added, h⟩ := h
          rw [← fieldsEq] at added
          exact .unknown fieldsEq typename found added (ih _ _ _ _ h)
        | some fd =>
          simp only [found, run_bind_eq_some] at h
          obtain ⟨outcome, st₁, ran, h⟩ := h
          rw [← fieldsEq] at ran
          have derived := field _ _ _ _ _ _ _ _ _ ran
          cases outcome with
          | pending => exact .pending fieldsEq typename found derived (ih _ _ _ _ h)
          | done v =>
            by_cases null : v.isNull = true
            · have same := ResponseValue.eq_null_of_isNull null
              subst same
              by_cases nonNull : fd.type.isNonNull = true
              · simp only [null, nonNull, if_true, run_bind_eq_some, run_pure_eq_some] at h
                obtain ⟨⟨⟩, st₂, marked, rfl, rfl⟩ := h
                exact .nulled fieldsEq typename found derived nonNull marked
              · simp only [null, nonNull, if_true, Bool.false_eq_true, if_false] at h
                exact .value fieldsEq typename found derived (fun _ => by simpa using nonNull)
                  (ih _ _ _ _ h)
            · have present : v.isNull = false := by simpa using null
              simp only [present, Bool.false_eq_true, if_false] at h
              exact .value fieldsEq typename found derived (by simp [present]) (ih _ _ _ _ h)

/-- All completions at a budget, each a derivation. -/
structure Sound (c : ExecContext σ) (n : Nat) : Prop where
  selections : SelectionsSound c n
  groups : GroupsSound c n
  field : FieldSound c n
  value : ValueSound c n
  list : ListSound c n
  items : ItemsSound c n
  object : ObjectSound c n

theorem sound (c : ExecContext σ) : ∀ n, Sound c n
  | 0 =>
    have field := fieldSound_zero
    have value := valueSound_zero
    ⟨selectionsSound_zero, groupsSound field, field, value, listSound_zero, itemsSound value,
      objectSound_zero⟩
  | n + 1 =>
    have previous := sound c n
    have field := fieldSound_succ previous.value
    have value := valueSound_succ previous.value previous.list previous.object
    ⟨selectionsSound_succ previous.groups, groupsSound field, field, value,
      listSound_succ previous.items, itemsSound value, objectSound_succ previous.selections⟩

end Exec

end GraphWeave
