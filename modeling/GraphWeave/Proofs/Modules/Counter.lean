import GraphWeave.Proofs.Execution.Dispatch
import GraphWeave.Proofs.Execution.Batches
import GraphWeave.Proofs.Execution.Coercion
import GraphWeave.Modules.Counter
import Mathlib

/-!
The counter's mutations are running sums. A mutation whose root fields are the counter's `increment`
and `decrement` runs them one after the other in the order their keys first appear.
-/

namespace GraphWeave

namespace Modules.Counter

variable {σ : Type}

/-- The sign each of the counter's mutations gives the amount it adds. -/
def signOf? : String → Option Int
  | "increment" => some 1
  | "decrement" => some (-1)
  | _ => none

/-- The `count` field the module adds to `Query`. -/
def countField (slot : Slot σ) : FieldDef σ :=
  FieldDef.ofResolver "count" (.nonNull (.named "Int")) (count slot)

/-- Whether an integer is a value of `Int`, a signed 32-bit integer. -/
def Fits (n : Int) : Prop := -Int.pow 2 31 ≤ n ∧ n < Int.pow 2 31

instance : DecidablePred Fits := fun _ => inferInstanceAs (Decidable (_ ∧ _))

/-- A slot that reads back what was last written to it. -/
def Slot.Lawful (slot : Slot σ) : Prop := ∀ st n, slot.get (slot.set st n) = n

/-- A schema runs the counter as the application installs it: `Int` is a scalar, `Mutation` is
the mutation root with `increment` and `decrement`, and `Query` the query root with `count`, each
field resolved by the counter's own definition. -/
structure Installed (es : ExecutableSchema σ) (slot : Slot σ) : Prop where
  int : ∃ t, es.raw.type? "Int" = some t ∧ t.kind = .scalar
  mutation : ∃ M, es.raw.mutationType? = some M ∧ M.name = "Mutation" ∧
    ∀ name sign, signOf? name = some sign →
      M.field? name = some (mutationField slot name sign).toSchema ∧
        es.fieldDef? "Mutation" name = some (mutationField slot name sign)
  query : ∃ Q, es.raw.queryType? = some Q ∧ Q.name = "Query" ∧
    Q.field? "count" = some (countField slot).toSchema ∧
      es.fieldDef? "Query" "count" = some (countField slot)

/-! ### The amount a mutation asks for -/

/-- The value a written argument gives: a literal's own value, or the value its variable holds;
a variable that was not given gives none. -/
def given? (vars : List (String × Value)) : Literal → Option Value
  | .variable v => Value.lookup vars v
  | lit => some (lit.toValue vars)

/-- What the arguments written on a counter mutation ask it to add, as its `by` argument
coerces: the integer its literal or variable coerces to, 1 when it is not written or its variable
was not given, and 0 when it is null. Nothing but one `by` is written. -/
inductive Asks (s : Schema) (vars : List (String × Value)) : List (String × Literal) → Int → Prop
  | absent : Asks s vars [] 1
  | unset {lit : Literal} : given? vars lit = none → Asks s vars [("by", lit)] 1
  | null {lit : Literal} : given? vars lit = some .null → Asks s vars [("by", lit)] 0
  | int {lit : Literal} {x : Value} {n : Int} : given? vars lit = some x →
      s.coerce x (.named "Int") = .ok (.int .word n) → Asks s vars [("by", lit)] n

section Arguments

variable {s : Schema} {vars : List (String × Value)}

theorem coerce_int_of_fits {n : Int} (fits : Fits n) :
    s.coerce (.int .word n) (.named "Int") = .ok (.int .word n) := by
  rw [Schema.coerce, coerceInput_int _ _ _ (by simp)]
  simp only [Coerce.asInt]
  exact if_pos fits

theorem coerce_int_one : s.coerce (.int .word 1) (.named "Int") = .ok (.int .word 1) :=
  coerce_int_of_fits (by decide)

theorem coerce_null_int : s.coerce .null (.named "Int") = .ok .null := by
  rw [Schema.coerce, coerceInput_named_null]

/-- One written argument: one whose variable was not given is left out, and any other is coerced
to the argument's type. -/
theorem given_cons {field : Schema.Field} {acc : List (String × Value)} {name : String}
    {lit : Literal} {rest : List (String × Literal)} {arg : Schema.InputValue}
    (declared : field.argument? name = some arg) :
    Schema.coerceArguments.given s vars field acc ((name, lit) :: rest) =
      match given? vars lit with
      | none => Schema.coerceArguments.given s vars field acc rest
      | some x =>
        match s.coerce x arg.type with
        | .ok y => Schema.coerceArguments.given s vars field (Value.assign acc name y) rest
        | .error e => .error (.invalid name e) := by
  rw [Schema.coerceArguments.given.eq_def]
  rcases lit with v | _ | _ | _ | _ | _ | _ | _ | _
  · cases held : Value.lookup vars v
    · simp [declared, given?, held]
    · simp only [declared, given?, held, Literal.toValue, Option.getD_some]
      rfl
  all_goals
    simp only [declared, given?]
    rfl

theorem argument?_by (slot : Slot σ) (name : String) (sign : Int) :
    (mutationField slot name sign).toSchema.argument? "by" =
      some { name := "by", type := .named "Int", default := some (.int .word 1) } := by
  simp [mutationField, FieldDef.argument, FieldDef.ofResolver, FieldDef.toSchema,
    Schema.Field.argument?]

theorem defaults_by (slot : Slot σ) (name : String) (sign : Int) (x : Value) :
    Schema.coerceArguments.defaults s [("by", x)] (mutationField slot name sign).toSchema.arguments = .ok [("by", x)] := by
  simp [Schema.coerceArguments.defaults, mutationField, FieldDef.argument, FieldDef.ofResolver,
    FieldDef.toSchema, Value.lookup]

theorem defaults_nil (slot : Slot σ) (name : String) (sign : Int) :
    Schema.coerceArguments.defaults s [] (mutationField slot name sign).toSchema.arguments = .ok [("by", .int .word 1)] := by
  simp [Schema.coerceArguments.defaults, mutationField, FieldDef.argument, FieldDef.ofResolver,
    FieldDef.toSchema, Value.lookup, Value.assign, coerce_int_one]

/-- The coerced arguments of a counter mutation hold its `by` argument only: the integer asked
for, or null when it asks for 0. -/
theorem coerceArguments_asks {written : List (String × Literal)} {b : Int}
    (asks : Asks s vars written b) (slot : Slot σ) (name : String) (sign : Int) :
    ∃ x, s.coerceArguments vars (mutationField slot name sign).toSchema written = .ok [("by", x)] ∧
      (x = .int .word b ∨ x = .null ∧ b = 0) := by
  have declared := argument?_by slot name sign
  cases asks with
  | absent =>
    refine ⟨.int .word 1, ?_, .inl rfl⟩
    simp [Schema.coerceArguments, Schema.coerceArguments.given, defaults_nil]
  | unset unset =>
    refine ⟨.int .word 1, ?_, .inl rfl⟩
    simp only [Schema.coerceArguments, given_cons declared, unset]
    simp [Schema.coerceArguments.given, defaults_nil]
  | null null =>
    refine ⟨.null, ?_, .inr ⟨rfl, rfl⟩⟩
    simp only [Schema.coerceArguments, given_cons declared, null, coerce_null_int]
    simp [Schema.coerceArguments.given, Value.assign, defaults_by]
  | int gives coerced =>
    refine ⟨_, ?_, .inl rfl⟩
    simp only [Schema.coerceArguments, given_cons declared, gives, coerced]
    simp [Schema.coerceArguments.given, Value.assign, defaults_by]

theorem arg_by {x : Value} {b : Int} (held : x = .int .word b ∨ x = .null ∧ b = 0)
    (rc : ResolverContext) (args : rc.arguments = [("by", x)]) :
    rc.arg (α := Int) "by" = .ok b := by
  rcases held with rfl | ⟨rfl, rfl⟩ <;>
    simp [ResolverContext.arg, ResolverContext.argWith, args, Value.lookup, FromArgument.direct?,
      FromArgument.decode?, Value.toJson?, FromArgument.decodeInt]

end Arguments

/-! ### One root field -/

theorem runtime_resolve_value (es : ExecutableSchema σ) (md : Metadata) (task : ResolveTask)
    {session session' : Session σ} {v : Value} {t : String}
    (called : (es.call md task).run session = (.ok (.value v t), session')) :
    ((es.runtime md).resolve task).run session = (.ok (.single (.value v t)), session') := by
  simp only [ExecutableSchema.runtime, ExecutableSchema.resolveTask, StateT.run_bind, called]
  exact congrArg (fun r => (Except.ok r, session')) (by simp [FieldValue.toResolved])

theorem change_run {slot : Slot σ} {sign b : Int} {rc : ResolverContext} {x : Value}
    (held : x = .int .word b ∨ x = .null ∧ b = 0) (args : rc.arguments = [("by", x)]) (st : σ) :
    change slot sign rc st =
      (.ok (.value (.int .word (wrap (slot.get st + sign * b))) ""),
        slot.set st (wrap (slot.get st + sign * b))) := by
  simp only [change, arg_by held rc args]
  rfl

theorem call_change {es : ExecutableSchema σ} {slot : Slot σ} {name : String} {sign : Int}
    {task : ResolveTask}
    (found : es.fieldDef? task.objectType task.field = some (mutationField slot name sign))
    {x : Value} {b : Int} (args : task.arguments = [("by", x)])
    (held : x = .int .word b ∨ x = .null ∧ b = 0) (md : Metadata) (session : Session σ) :
    (es.call md task).run session =
      (.ok (.value (.int .word (wrap (slot.get session.store + sign * b))) ""),
        { store := slot.set session.store (wrap (slot.get session.store + sign * b))
          calls := session.calls.push ⟨task.objectType, task.field, false, none⟩ }) := by
  simp only [StateT.run, ExecutableSchema.call, found, mutationField, FieldDef.argument,
    FieldDef.ofResolver]
  rw [change_run held args]

theorem count_run (slot : Slot σ) (rc : ResolverContext) (st : σ) :
    count slot rc st = (.ok (.value (.int .word (slot.get st)) ""), st) := by
  simp only [count]
  rfl

theorem call_count {es : ExecutableSchema σ} {slot : Slot σ} {task : ResolveTask}
    (found : es.fieldDef? task.objectType task.field = some (countField slot)) (md : Metadata)
    (session : Session σ) :
    (es.call md task).run session =
      (.ok (.value (.int .word (slot.get session.store)) ""),
        { session with calls := session.calls.push ⟨task.objectType, task.field, false, none⟩ }) := by
  simp only [StateT.run, ExecutableSchema.call, found, countField, FieldDef.ofResolver]
  rw [count_run]

theorem completeNamed_int {es : ExecutableSchema σ} {md : Metadata} {c : ExecContext (Session σ)}
    (runtime : c.runtime = es.runtime md) (int : ∃ t, c.schema.type? "Int" = some t ∧ t.kind = .scalar)
    (n : Int) :
    Exec.completeNamed c "Int" (.single (.value (.int .word n) "")) =
      if Fits n then .value (.leaf (Json.int n))
      else .raise { message := "Int cannot represent value " ++ toString n } := by
  obtain ⟨t, found, scalar⟩ := int
  have serialized : es.serialize "Int" (.single (.value (.int .word n) "")) =
      if Fits n then .ok (Json.int n) else .error { message := "Int cannot represent value " ++ toString n } :=
    rfl
  simp only [Exec.completeNamed, found, scalar, runtime, ExecutableSchema.runtime, serialized]
  split_ifs <;> rfl

end Modules.Counter

namespace Exec

variable {σ : Type} {c : ExecContext σ}

/-- A field that may not be null and runs at once to a value that is not null adds the value
under its key, and the run goes on with the next group. -/
theorem executeGroups_nonNull_present {fuel : Nat} {object : Schema.NamedType} {source : Resolved}
    {path boundary : Path} {g : FieldGroup} {rest : List FieldGroup}
    {acc : List (String × ResponseValue)} {first : Field} {others : List Field}
    {fd : Schema.Field} (grouped : g.fields = first :: others)
    (other : first.name ≠ "__typename") (found : object.field? first.name = some fd)
    (nonNull : fd.type.isNonNull = true) {st st₁ : ExecState σ} {v : ResponseValue}
    (present : v.isNull = false)
    (ran : (executeField c fuel object source fd g.fields (path ++ [.key g.key]) boundary).run st =
      some (.done v, st₁)) :
    (executeGroups c fuel object source path boundary (g :: rest) acc).run st =
      (executeGroups c fuel object source path boundary rest (acc ++ [(g.key, v)])).run st₁ := by
  rw [grouped] at ran
  rw [executeGroups]
  simp only [grouped, other, found, nonNull, beq_iff_eq, if_false, if_true, StateT.run_bind, ran]
  simp [present]

end Exec

namespace Exec

variable {σ : Type}

theorem executeSelections_budget (c : ExecContext σ) (object : Schema.NamedType)
    (selections : List Selection) (source : Resolved) (path boundary : Path) :
    executeSelections c Schema.executionBudget object selections source path boundary =
      executeGroups c (99996 + 3) object source path boundary
        ((collectContext c).collect object.name selections) [] := by
  rw [show Schema.executionBudget = 99999 + 1 from rfl, executeSelections]

theorem runBatches_queued_nothing {c : ExecContext σ} {fuel rounds : Nat} {tree : ResponseValue}
    {st : ExecState σ} (idle : st.queue = #[]) :
    (runBatches c fuel rounds tree).run st = some (tree, st) := by
  rw [runBatches]
  simp [idle]

end Exec

namespace Schema

variable {σ : Type}

theorem execute_of_rooted {s : Schema} {runtime : Runtime σ} {doc : Document} {name : String}
    {given : List (String × Value)} {root : Resolved} {op : Operation}
    {vars : List (String × Value)} {rootType : NamedType} (found : doc.operation? name = some op)
    (coerced : s.coerceVariables given op.variableDefinitions = .ok vars)
    (rooted : s.RootTypeOf op.kind rootType) :
    s.execute runtime doc name given root = s.runOperation runtime doc op rootType vars root := by
  unfold execute
  cases kind : op.kind <;> simp_all [RootTypeOf]

/-- An operation whose root selection set runs at once, queueing nothing, answers the object of
its fields, or no data when one that may not be null came out null; its errors are those the run
recorded. -/
theorem runOperation_of_selections {s : Schema} {runtime : Runtime σ} {doc : Document}
    {op : Operation} {rootType : NamedType} {vars : List (String × Value)} {root : Resolved}
    {host : σ} {out : Option (List (String × ResponseValue))} {st : ExecState σ}
    (ran : (Exec.executeSelections ⟨runtime, s, doc, op, vars⟩ executionBudget rootType
      op.selections root [] []).run { host } = some (out, st))
    (idle : st.queue = #[]) (clean : st.dataNull = false) :
    s.runOperation runtime doc op rootType vars root host =
      (⟨out.map .object, st.errors.toList⟩, st.host) := by
  have within : s.runOperationWithin executionBudget runtime doc op rootType vars root host =
      (some ⟨out.map .object, st.errors.toList⟩, st.host) := by
    unfold runOperationWithin
    dsimp only
    simp only [StateT.run_bind, ran]
    cases out with
    | none => rfl
    | some fs =>
      simp only [Option.bind_eq_bind, Option.bind_some, Exec.runBatches_queued_nothing idle,
        StateT.run_bind, StateT.run_get, Option.pure_def, clean, Bool.false_eq_true, if_false,
        StateT.run_pure]
      rfl
  simp only [runOperation, bind, StateT.bind, within]
  rfl

end Schema

namespace Modules.Counter

variable {σ : Type}

/-! ### Root fields run one after the other -/

/-- A root field of a counter mutation: its response key, the first node selecting it, the sign
of the mutation that node names and the amount its arguments ask for. -/
structure Change where
  key : String
  node : Field
  sign : Int
  amount : Int

/-- A field group that selects a counter mutation, as the change says. -/
def Selects (s : Schema) (vars : List (String × Value)) (g : FieldGroup) (ch : Change) : Prop :=
  g.key = ch.key ∧ (∃ others, g.fields = ch.node :: others) ∧ signOf? ch.node.name = some ch.sign ∧
    Asks s vars ch.node.arguments ch.amount

/-- The call the resolver log records for a change. -/
def Change.call (ch : Change) : ResolverCall := ⟨"Mutation", ch.node.name, false, none⟩

/-- The counter a change leaves after the one in a session. -/
def Change.value (slot : Slot σ) (ch : Change) (session : Session σ) : Int :=
  wrap (slot.get session.store + ch.sign * ch.amount)

/-- The session after a change: the counter set to its new value, and the call logged. -/
def Change.apply (slot : Slot σ) (ch : Change) (session : Session σ) : Session σ :=
  { store := slot.set session.store (ch.value slot session), calls := session.calls.push ch.call }

/-- The error a change records when the counter it leaves is no `Int`. -/
def Change.overflow (ch : Change) (n : Int) : ResponseError :=
  ⟨"Int cannot represent value " ++ toString n, [ch.node.location], [.key ch.key], []⟩

/-- The counter after each of the changes, from a starting value: the running sums, wrapped
around as the counter holds them. -/
def totals (start : Int) : List Change → List Int
  | [] => []
  | ch :: rest => wrap (start + ch.sign * ch.amount) :: totals (wrap (start + ch.sign * ch.amount)) rest

/-- The counter after all the changes. -/
def total (start : Int) (changes : List Change) : Int :=
  changes.foldl (fun n ch => wrap (n + ch.sign * ch.amount)) start

/-- What the changes answer under their keys: the counter after each. -/
def answers (start : Int) (changes : List Change) : List (String × ResponseValue) :=
  changes.zipWith (fun ch n => (ch.key, .leaf (Json.int n))) (totals start changes)

/-- The session after the changes, one after another. -/
def applyAll (slot : Slot σ) (changes : List Change) (session : Session σ) : Session σ :=
  changes.foldl (fun session ch => ch.apply slot session) session

theorem total_append_single (start : Int) (pre : List Change) (ch : Change) :
    total start (pre ++ [ch]) = wrap (total start pre + ch.sign * ch.amount) := by
  simp [total]

theorem applyAll_append (slot : Slot σ) (pre post : List Change) (session : Session σ) :
    applyAll slot (pre ++ post) session = applyAll slot post (applyAll slot pre session) := by
  simp [applyAll]

theorem get_applyAll {slot : Slot σ} (lawful : slot.Lawful) (changes : List Change)
    (session : Session σ) :
    slot.get (applyAll slot changes session).store = total (slot.get session.store) changes := by
  induction changes generalizing session with
  | nil => rfl
  | cons ch rest ih =>
    have step : slot.get (ch.apply slot session).store =
        wrap (slot.get session.store + ch.sign * ch.amount) :=
      lawful _ _
    simp only [applyAll, List.foldl_cons] at ih ⊢
    rw [ih, step]
    rfl

/-- The call the resolver log records for a read of the counter. -/
def countCall : ResolverCall := ⟨"Query", "count", false, none⟩

/-- The session after one read of the counter for each group: the reads logged. -/
def readCounts (groups : List FieldGroup) (session : Session σ) : Session σ :=
  groups.foldl (fun session _ => { session with calls := session.calls.push countCall }) session

theorem readCounts_eq (groups : List FieldGroup) (session : Session σ) :
    readCounts groups session =
      { session with calls := session.calls ++ (groups.map fun _ => countCall).toArray } := by
  induction groups generalizing session with
  | nil => simp [readCounts]
  | cons g gs ih =>
    simp only [readCounts, List.foldl_cons] at ih ⊢
    rw [ih]
    congr 1
    apply Array.toList_inj.mp
    simp

/-- A field group that reads the counter: its first node selects `count`, with no arguments. -/
def ReadsCount (g : FieldGroup) : Prop :=
  ∃ node others, g.fields = node :: others ∧ node.name = "count" ∧ node.arguments = []

section Run

variable {es : ExecutableSchema σ} {slot : Slot σ} {md : Metadata} {doc : Document}
  {op : Operation} {vars : List (String × Value)}

theorem Installed.query_field (installed : Installed es slot) {Q : Schema.NamedType}
    (root : es.raw.queryType? = some Q) :
    Q.name = "Query" ∧ Q.field? "count" = some (countField slot).toSchema ∧
      es.fieldDef? Q.name "count" = some (countField slot) := by
  obtain ⟨Q', root', called, field, defined⟩ := installed.query
  obtain rfl : Q = Q' := Option.some.inj (root.symm.trans root')
  exact ⟨called, field, called ▸ defined⟩

theorem Installed.mutation_name (installed : Installed es slot) {M : Schema.NamedType}
    (root : es.raw.mutationType? = some M) : M.name = "Mutation" := by
  obtain ⟨M', root', called, -⟩ := installed.mutation
  obtain rfl : M = M' := Option.some.inj (root.symm.trans root')
  exact called

theorem Installed.mutation_field (installed : Installed es slot) {M : Schema.NamedType}
    (root : es.raw.mutationType? = some M) {name : String} {sign : Int}
    (named : signOf? name = some sign) :
    M.name = "Mutation" ∧ M.field? name = some (mutationField slot name sign).toSchema ∧
      es.fieldDef? M.name name = some (mutationField slot name sign) := by
  obtain ⟨M', root', called, fields⟩ := installed.mutation
  obtain rfl : M = M' := Option.some.inj (root.symm.trans root')
  obtain ⟨field, defined⟩ := fields name sign named
  exact ⟨called, field, called ▸ defined⟩

theorem signOf?_eq_some {name : String} {sign : Int} (named : signOf? name = some sign) :
    name = "increment" ∧ sign = 1 ∨ name = "decrement" ∧ sign = -1 := by
  unfold signOf? at named
  split at named <;> simp_all

theorem signOf?_ne_typename {name : String} {sign : Int} (named : signOf? name = some sign) :
    name ≠ "__typename" := by
  rintro rfl
  simp [signOf?] at named

/-- A root field selecting a counter mutation runs at once: it adds its change to the counter and
logs its call, and answers the new value under its key when that is an `Int`; otherwise its
error stands at its key and the null it leaves ends the selection set. -/
theorem executeGroups_change (installed : Installed es slot) {M : Schema.NamedType}
    (root : es.raw.mutationType? = some M) {g : FieldGroup} {ch : Change}
    (selects : Selects es.raw vars g ch) (fuel : Nat) (source : Resolved)
    (rest : List FieldGroup) (acc : List (String × ResponseValue)) (st : ExecState (Session σ)) :
    (Exec.executeGroups ⟨es.runtime md, es.raw, doc, op, vars⟩ (fuel + 3) M source [] []
        (g :: rest) acc).run st =
      if Fits (ch.value slot st.host) then
        (Exec.executeGroups ⟨es.runtime md, es.raw, doc, op, vars⟩ (fuel + 3) M source [] [] rest
          (acc ++ [(ch.key, .leaf (Json.int (ch.value slot st.host)))])).run
          { st with host := ch.apply slot st.host }
      else
        some (none,
          { st with
            host := ch.apply slot st.host
            errors := st.errors.push (ch.overflow (ch.value slot st.host)) }) := by
  obtain ⟨keyed, ⟨others, grouped⟩, named, asks⟩ := selects
  obtain ⟨called, field, defined⟩ := installed.mutation_field root named
  obtain ⟨x, coerced, held⟩ := coerceArguments_asks asks slot ch.node.name ch.sign
  let c : ExecContext (Session σ) := ⟨es.runtime md, es.raw, doc, op, vars⟩
  have answered : (c.runtime.resolve (Exec.fieldTask c M source (mutationField slot ch.node.name
      ch.sign).toSchema [("by", x)] g.fields ([] ++ [.key g.key]))).run st.host =
      (.ok (.single (.value (.int .word (ch.value slot st.host)) "")), ch.apply slot st.host) := by
    have found : es.fieldDef? (Exec.fieldTask c M source (mutationField slot ch.node.name
        ch.sign).toSchema [("by", x)] g.fields ([] ++ [.key g.key])).objectType
        (Exec.fieldTask c M source (mutationField slot ch.node.name ch.sign).toSchema [("by", x)]
          g.fields ([] ++ [.key g.key])).field = some (mutationField slot ch.node.name ch.sign) := by
      simpa [Exec.fieldTask, FieldDef.toSchema, mutationField, FieldDef.argument,
        FieldDef.ofResolver] using defined
    rw [runtime_resolve_value es md _ (call_change found rfl held md st.host)]
    simp [Exec.fieldTask, Change.apply, Change.value, Change.call, called, FieldDef.toSchema,
      mutationField, FieldDef.argument, FieldDef.ofResolver]
  have coerced' : c.schema.coerceArguments c.variableValues (mutationField slot ch.node.name
      ch.sign).toSchema (Exec.writtenArguments g.fields) = .ok [("by", x)] := by
    rw [grouped]
    exact coerced
  have now : ((mutationField slot ch.node.name ch.sign).toSchema.async &&
      !Exec.isSerial c ([] ++ [.key g.key])) = false := rfl
  have completed := completeNamed_int (c := c) rfl installed.int (ch.value slot st.host)
  have present := Exec.single_present (.value (.int .word (ch.value slot st.host)) "")
  by_cases fits : Fits (ch.value slot st.host)
  · rw [if_pos fits] at completed
    have ran := Exec.executeField_completes coerced' now answered
      (Exec.completes_nonNull present.1 present.2
        (@Exec.completes_leaf _ _ _ fuel _ _ _ _ [] present.1 present.2 completed))
    rw [Exec.executeGroups_nonNull_present grouped (signOf?_ne_typename named) field rfl rfl ran,
      if_pos fits]
    simp only [keyed, Array.append_empty]
    rfl
  · rw [if_neg fits] at completed
    have ran := Exec.executeField_completes coerced' now answered
      (Exec.completes_nonNull present.1 present.2
        (@Exec.completes_raise _ _ _ fuel _ _ _ present.1 present.2 completed _ []))
    rw [Exec.executeGroups_nonNull_null grouped (signOf?_ne_typename named) field rfl ran,
      if_neg fits]
    simp only [List.isEmpty_nil, if_true, Array.append_singleton, Exec.itemFailure, grouped,
      Exec.locationsOf, List.nil_append, keyed]
    rfl

/-- Root fields selecting counter mutations whose every new value is an `Int` answer the running
sums under their keys, in order, and leave the counter changed by each and each call logged. -/
theorem executeGroups_fitting (installed : Installed es slot) (lawful : slot.Lawful)
    {M : Schema.NamedType} (root : es.raw.mutationType? = some M) {groups : List FieldGroup}
    {changes : List Change} (chosen : List.Forall₂ (Selects es.raw vars) groups changes)
    (fuel : Nat) (source : Resolved) (rest : List FieldGroup) (acc : List (String × ResponseValue))
    (st : ExecState (Session σ)) (fits : ∀ n ∈ totals (slot.get st.host.store) changes, Fits n) :
    (Exec.executeGroups ⟨es.runtime md, es.raw, doc, op, vars⟩ (fuel + 3) M source [] []
        (groups ++ rest) acc).run st =
      (Exec.executeGroups ⟨es.runtime md, es.raw, doc, op, vars⟩ (fuel + 3) M source [] [] rest
        (acc ++ answers (slot.get st.host.store) changes)).run
        { st with host := applyAll slot changes st.host } := by
  induction chosen generalizing st acc with
  | nil => simp [answers, totals, applyAll]
  | @cons g ch gs chs selects _ ih =>
    have first : Fits (ch.value slot st.host) := fits _ List.mem_cons_self
    have later : ∀ n ∈ totals (slot.get (ch.apply slot st.host).store) chs, Fits n := by
      rw [show slot.get (ch.apply slot st.host).store = ch.value slot st.host from lawful _ _]
      exact fun n mem => fits n (List.mem_cons_of_mem _ mem)
    rw [List.cons_append, executeGroups_change installed root selects, if_pos first, ih _ _ later,
      show slot.get (ch.apply slot st.host).store = ch.value slot st.host from lawful _ _]
    simp [answers, totals, applyAll, Change.value]

/-- Root fields selecting counter mutations stop at the first whose new value is not an `Int`:
the ones before it answer and change the counter, it changes the counter too and records its
error, and the selection set is null. -/
theorem executeGroups_overflow (installed : Installed es slot) (lawful : slot.Lawful)
    {M : Schema.NamedType} (root : es.raw.mutationType? = some M) {groups : List FieldGroup}
    {pre post : List Change} {ch : Change}
    (chosen : List.Forall₂ (Selects es.raw vars) groups (pre ++ ch :: post)) (fuel : Nat)
    (source : Resolved) (acc : List (String × ResponseValue)) (st : ExecState (Session σ))
    (fits : ∀ n ∈ totals (slot.get st.host.store) pre, Fits n)
    (beyond : ¬ Fits (total (slot.get st.host.store) (pre ++ [ch]))) :
    (Exec.executeGroups ⟨es.runtime md, es.raw, doc, op, vars⟩ (fuel + 3) M source [] [] groups
        acc).run st =
      some (none,
        { st with
          host := applyAll slot (pre ++ [ch]) st.host
          errors := st.errors.push (ch.overflow (total (slot.get st.host.store) (pre ++ [ch]))) }) := by
  obtain ⟨g, gs, selects, -, split⟩ :=
    List.forall₂_cons_right_iff.mp (List.forall₂_drop_append _ _ _ chosen)
  have front := List.forall₂_take_append _ _ _ chosen
  have value : ch.value slot (applyAll slot pre st.host) =
      total (slot.get st.host.store) (pre ++ [ch]) := by
    rw [Change.value, get_applyAll lawful, total_append_single]
  rw [← List.take_append_drop pre.length groups, split,
    executeGroups_fitting installed lawful root front fuel source _ acc st fits,
    executeGroups_change installed root selects, value, if_neg beyond, applyAll_append]
  rfl

/-- A root field reading `count` answers the counter under its key when it is an `Int`; its call
is logged and nothing else changes. -/
theorem executeGroups_count (installed : Installed es slot) {Q : Schema.NamedType}
    (root : es.raw.queryType? = some Q) {g : FieldGroup} (reading : ReadsCount g) (fuel : Nat)
    (source : Resolved) (rest : List FieldGroup) (acc : List (String × ResponseValue))
    (st : ExecState (Session σ)) (fits : Fits (slot.get st.host.store)) :
    (Exec.executeGroups ⟨es.runtime md, es.raw, doc, op, vars⟩ (fuel + 3) Q source [] []
        (g :: rest) acc).run st =
      (Exec.executeGroups ⟨es.runtime md, es.raw, doc, op, vars⟩ (fuel + 3) Q source [] [] rest
        (acc ++ [(g.key, .leaf (Json.int (slot.get st.host.store)))])).run
        { st with host := readCounts [g] st.host } := by
  obtain ⟨node, others, grouped, named, bare⟩ := reading
  obtain ⟨called, field, defined⟩ := installed.query_field root
  let c : ExecContext (Session σ) := ⟨es.runtime md, es.raw, doc, op, vars⟩
  have answered : (c.runtime.resolve (Exec.fieldTask c Q source (countField slot).toSchema []
      g.fields ([] ++ [.key g.key]))).run st.host =
      (.ok (.single (.value (.int .word (slot.get st.host.store)) "")), readCounts [g] st.host) := by
    have found : es.fieldDef? (Exec.fieldTask c Q source (countField slot).toSchema [] g.fields
        ([] ++ [.key g.key])).objectType (Exec.fieldTask c Q source (countField slot).toSchema []
          g.fields ([] ++ [.key g.key])).field = some (countField slot) := by
      simpa [Exec.fieldTask, FieldDef.toSchema, countField, FieldDef.ofResolver] using defined
    rw [runtime_resolve_value es md _ (call_count found md st.host)]
    simp [Exec.fieldTask, readCounts, countCall, called, FieldDef.toSchema, countField,
      FieldDef.ofResolver]
  have coerced : c.schema.coerceArguments c.variableValues (countField slot).toSchema
      (Exec.writtenArguments g.fields) = .ok [] := by
    simp [grouped, Exec.writtenArguments, bare, Schema.coerceArguments,
      Schema.coerceArguments.given, Schema.coerceArguments.defaults, countField,
      FieldDef.ofResolver, FieldDef.toSchema]
  have now : ((countField slot).toSchema.async && !Exec.isSerial c ([] ++ [.key g.key])) = false :=
    rfl
  have completed := completeNamed_int (c := c) rfl installed.int (slot.get st.host.store)
  rw [if_pos fits] at completed
  have present := Exec.single_present (.value (.int .word (slot.get st.host.store)) "")
  have ran := Exec.executeField_completes coerced now answered
    (Exec.completes_nonNull present.1 present.2
      (@Exec.completes_leaf _ _ _ fuel _ _ _ _ [] present.1 present.2 completed))
  have other : node.name ≠ "__typename" := by
    rw [named]
    decide
  rw [Exec.executeGroups_nonNull_present grouped other (named ▸ field) rfl rfl ran]
  simp only [Array.append_empty]
  rfl

/-- Root fields that all read `count` answer the counter under each key, when it is an `Int`,
and log one read each. -/
theorem executeGroups_counts (installed : Installed es slot) {Q : Schema.NamedType}
    (root : es.raw.queryType? = some Q) {groups : List FieldGroup}
    (reading : ∀ g ∈ groups, ReadsCount g) (fuel : Nat) (source : Resolved)
    (rest : List FieldGroup) (acc : List (String × ResponseValue)) (st : ExecState (Session σ))
    (fits : Fits (slot.get st.host.store)) :
    (Exec.executeGroups ⟨es.runtime md, es.raw, doc, op, vars⟩ (fuel + 3) Q source [] []
        (groups ++ rest) acc).run st =
      (Exec.executeGroups ⟨es.runtime md, es.raw, doc, op, vars⟩ (fuel + 3) Q source [] [] rest
        (acc ++ groups.map fun g => (g.key, .leaf (Json.int (slot.get st.host.store))))).run
        { st with host := readCounts groups st.host } := by
  induction groups generalizing st acc with
  | nil => simp [readCounts]
  | cons g gs ih =>
    have kept : (readCounts [g] st.host).store = st.host.store := rfl
    rw [List.cons_append, executeGroups_count installed root (reading g List.mem_cons_self) _ _ _
      _ _ fits, ih (fun g' mem => reading g' (List.mem_cons_of_mem _ mem)) _
      { st with host := readCounts [g] st.host } (by rwa [kept])]
    simp [readCounts]

/-! ### Whole operations -/

/-- A mutation whose root fields all select counter mutations, every new value an `Int`, answers
the running sums under their keys with no error; the counter is changed by each and each call is
logged. -/
theorem runOperation_fitting (installed : Installed es slot) (lawful : slot.Lawful)
    {M : Schema.NamedType} (root : es.raw.mutationType? = some M) {changes : List Change}
    (chosen : List.Forall₂ (Selects es.raw vars)
      ((⟨es.raw, doc, vars⟩ : CollectContext).collect "Mutation" op.selections) changes)
    (source : Resolved) (session : Session σ)
    (fits : ∀ n ∈ totals (slot.get session.store) changes, Fits n) :
    es.raw.runOperation (es.runtime md) doc op M vars source session =
      (⟨some (.object (answers (slot.get session.store) changes)), []⟩,
        applyAll slot changes session) := by
  rw [← installed.mutation_name root] at chosen
  have selected : (Exec.executeSelections ⟨es.runtime md, es.raw, doc, op, vars⟩
      Schema.executionBudget M op.selections source [] []).run { host := session } =
      some (some (answers (slot.get session.store) changes),
        { host := applyAll slot changes session }) := by
    rw [Exec.executeSelections_budget, Exec.collectContext,
      ← List.append_nil (CollectContext.collect _ _ _),
      executeGroups_fitting installed lawful root chosen 99996 source [] [] { host := session } fits]
    simp [Exec.executeGroups]
  rw [Schema.runOperation_of_selections selected rfl rfl]
  rfl

/-- A mutation whose root fields all select counter mutations stops at the first whose new value
is not an `Int`: there is no data and one error, at that field's key; the counter is changed by
the fields up to it, and no later field is called. -/
theorem runOperation_overflow (installed : Installed es slot) (lawful : slot.Lawful)
    {M : Schema.NamedType} (root : es.raw.mutationType? = some M) {pre post : List Change}
    {ch : Change}
    (chosen : List.Forall₂ (Selects es.raw vars)
      ((⟨es.raw, doc, vars⟩ : CollectContext).collect "Mutation" op.selections) (pre ++ ch :: post))
    (source : Resolved) (session : Session σ)
    (fits : ∀ n ∈ totals (slot.get session.store) pre, Fits n)
    (beyond : ¬ Fits (total (slot.get session.store) (pre ++ [ch]))) :
    es.raw.runOperation (es.runtime md) doc op M vars source session =
      (⟨none, [ch.overflow (total (slot.get session.store) (pre ++ [ch]))]⟩,
        applyAll slot (pre ++ [ch]) session) := by
  rw [← installed.mutation_name root] at chosen
  have selected : (Exec.executeSelections ⟨es.runtime md, es.raw, doc, op, vars⟩
      Schema.executionBudget M op.selections source [] []).run { host := session } =
      some (none, { host := applyAll slot (pre ++ [ch]) session
                    errors := #[ch.overflow (total (slot.get session.store) (pre ++ [ch]))] }) := by
    rw [Exec.executeSelections_budget, Exec.collectContext,
      executeGroups_overflow installed lawful root chosen 99996 source [] { host := session } fits
        beyond]
    rfl
  rw [Schema.runOperation_of_selections selected rfl rfl]
  rfl

/-- A query whose root fields all read `count` answers the counter under each key, when it is an
`Int`, with no error; only the reads are logged. -/
theorem runOperation_counts (installed : Installed es slot) {Q : Schema.NamedType}
    (root : es.raw.queryType? = some Q)
    (reading : ∀ g ∈ (⟨es.raw, doc, vars⟩ : CollectContext).collect "Query" op.selections,
      ReadsCount g)
    (source : Resolved) (session : Session σ) (fits : Fits (slot.get session.store)) :
    es.raw.runOperation (es.runtime md) doc op Q vars source session =
      (⟨some (.object (((⟨es.raw, doc, vars⟩ : CollectContext).collect "Query" op.selections).map
          fun g => (g.key, .leaf (Json.int (slot.get session.store))))), []⟩,
        readCounts ((⟨es.raw, doc, vars⟩ : CollectContext).collect "Query" op.selections)
          session) := by
  rw [← (installed.query_field root).1] at reading ⊢
  have selected : (Exec.executeSelections ⟨es.runtime md, es.raw, doc, op, vars⟩
      Schema.executionBudget Q op.selections source [] []).run { host := session } =
      some (some (((⟨es.raw, doc, vars⟩ : CollectContext).collect Q.name op.selections).map
          fun g => (g.key, .leaf (Json.int (slot.get session.store)))),
        { host :=
            readCounts ((⟨es.raw, doc, vars⟩ : CollectContext).collect Q.name op.selections) session }) := by
    rw [Exec.executeSelections_budget, Exec.collectContext,
      ← List.append_nil (CollectContext.collect _ _ _),
      executeGroups_counts installed root reading 99996 source [] [] { host := session } fits]
    simp [Exec.executeGroups]
  rw [Schema.runOperation_of_selections selected rfl rfl]
  rfl

end Run

end Modules.Counter

end GraphWeave
