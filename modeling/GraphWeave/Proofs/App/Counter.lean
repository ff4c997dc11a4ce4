import GraphWeave.Proofs.App.Assembly
import Mathlib

/-!
The application's counter: a mutation of its fields answers the running sums they ask for, the first
sum outside `Int` ends the operation with one error, and `count` reads the counter.
-/

namespace GraphWeave

namespace App

open Modules Counter

theorem counterSlot_lawful : counterSlot.Lawful := fun _ _ => rfl

theorem applyAll_counter (changes : List Change) (session : Session AppState) :
    applyAll counterSlot changes session =
      { store := { counter := total session.store.counter changes }
        calls := session.calls ++ (changes.map Change.call).toArray } := by
  induction changes generalizing session with
  | nil => rfl
  | cons ch rest ih =>
    simp only [applyAll, List.foldl_cons] at ih ⊢
    rw [ih]
    congr 1
    apply Array.toList_inj.mp
    simp [Change.apply]

/-- Counter mutations are running sums. Take a request naming an operation of a document, with
variables that coerce, on the assembled application, from any session. When the operation is a
mutation whose root field groups, in order, select the counter's mutations as the changes say
(each by its first node, with the amount its `by` argument asks for), and every running sum of
the changes from the counter is an `Int`, the data maps each key to its running sum, with no
error; the counter ends at the total and each call is logged. When the first sum out of range is
that of a change, there is no data and one error, at that change's key; the counter ends at that
sum and only the calls up to that change are logged. When the operation is a query whose root
fields all read `count` and the counter is an `Int`, the data maps each key to the counter. -/
theorem counter_running_sums {app : ExecutableSchema AppState}
    (assembled : assemble modules = .ok app) (doc : Document) (req : Request) {op : Operation}
    {vars : List (String × Value)} (found : doc.operation? req.operationName = some op)
    (coerced : app.raw.coerceVariables req.variableValues op.variableDefinitions = .ok vars)
    (session : Session AppState) :
    (op.kind = .mutation → ∀ changes : List Change,
      List.Forall₂ (Selects app.raw vars)
        ((⟨app.raw, doc, vars⟩ : CollectContext).collect "Mutation" op.selections) changes →
      ((∀ n ∈ totals session.store.counter changes, Fits n) →
        (app.executeDocument doc req).run session =
          (⟨some (.object (answers session.store.counter changes)), []⟩,
            { store := { counter := total session.store.counter changes }
              calls := session.calls ++ (changes.map Change.call).toArray })) ∧
      ∀ pre ch post, changes = pre ++ ch :: post →
        (∀ n ∈ totals session.store.counter pre, Fits n) →
        ¬ Fits (total session.store.counter (pre ++ [ch])) →
        (app.executeDocument doc req).run session =
          (⟨none, [ch.overflow (total session.store.counter (pre ++ [ch]))]⟩,
            { store := { counter := total session.store.counter (pre ++ [ch]) }
              calls := session.calls ++ ((pre ++ [ch]).map Change.call).toArray })) ∧
    (op.kind = .query →
      (∀ g ∈ (⟨app.raw, doc, vars⟩ : CollectContext).collect "Query" op.selections,
        ReadsCount g) →
      Fits session.store.counter →
      (app.executeDocument doc req).run session =
        (⟨some (.object (((⟨app.raw, doc, vars⟩ : CollectContext).collect "Query"
            op.selections).map fun g => (g.key, .leaf (Json.int session.store.counter)))), []⟩,
          { session with
            calls := session.calls ++ (((⟨app.raw, doc, vars⟩ : CollectContext).collect "Query"
              op.selections).map fun _ => countCall).toArray })) := by
  have installed := counter_installed assembled
  obtain ⟨M, mutationRoot, -⟩ := installed.mutation
  obtain ⟨Q, queryRoot, -⟩ := installed.query
  have runs : ∀ {rootType}, app.raw.RootTypeOf op.kind rootType →
      (app.executeDocument doc req).run session =
        app.raw.runOperation (app.runtime req.metadata) doc op rootType vars
          (if req.root.isNull then .null else .single req.root) session := fun rooted => by
    simp only [ExecutableSchema.executeDocument, Schema.execute_of_rooted found coerced rooted]
    rfl
  refine ⟨fun mutation changes chosen => ⟨fun fits => ?_, fun pre ch post split fits beyond => ?_⟩,
    fun query reading fits => ?_⟩
  · rw [runs (by rw [mutation]; exact mutationRoot),
      runOperation_fitting installed counterSlot_lawful mutationRoot chosen _ session fits,
      applyAll_counter]
    rfl
  · subst split
    rw [runs (by rw [mutation]; exact mutationRoot),
      runOperation_overflow installed counterSlot_lawful mutationRoot chosen _ session fits beyond,
      applyAll_counter]
    rfl
  · rw [runs (by rw [query]; exact queryRoot),
      runOperation_counts installed queryRoot reading _ session fits, readCounts_eq]
    rfl

/-- The counter at 20 and `mutation { decrement(by: 5) increment(by: 2) }`: the root fields run
in order and answer 15 and 17. -/
theorem decrement_then_increment_from_twenty :
    let decrement : Field := ⟨"decrement", "decrement", [("by", .int "5")], [], [], ⟨1, 12⟩⟩
    let increment : Field := ⟨"increment", "increment", [("by", .int "2")], [], [], ⟨1, 29⟩⟩
    let op : Operation := ⟨.mutation, "", [], [], [.field decrement, .field increment]⟩
    let doc : Document := ⟨[op], []⟩
    let req : Request := { query := "mutation { decrement(by: 5) increment(by: 2) }" }
    let changes : List Change := [⟨"decrement", decrement, -1, 5⟩, ⟨"increment", increment, 1, 2⟩]
    ∃ app, assemble modules = .ok app ∧ doc.operation? req.operationName = some op ∧
      app.raw.coerceVariables req.variableValues op.variableDefinitions = .ok [] ∧
      op.kind = .mutation ∧
      List.Forall₂ (Selects app.raw [])
        ((⟨app.raw, doc, []⟩ : CollectContext).collect "Mutation" op.selections) changes ∧
      (∀ n ∈ totals 20 changes, Fits n) ∧
      (app.executeDocument doc req).run ⟨{ counter := 20 }, #[]⟩ =
        (⟨some (.object [("decrement", .leaf (Json.int 15)), ("increment", .leaf (Json.int 17))]),
            []⟩,
          ⟨{ counter := 17 }, #[⟨"Mutation", "decrement", false, none⟩,
            ⟨"Mutation", "increment", false, none⟩]⟩) := by
  intro decrement increment op doc req changes
  obtain ⟨app, assembled⟩ := assemble_ok
  have found : doc.operation? req.operationName = some op := rfl
  have coerced : app.raw.coerceVariables req.variableValues op.variableDefinitions = .ok [] := rfl
  have collected : (⟨app.raw, doc, []⟩ : CollectContext).collect "Mutation" op.selections =
      [⟨"decrement", [decrement]⟩, ⟨"increment", [increment]⟩] := by
    simp [CollectContext.collect, CollectContext.collectInto, CollectContext.includes,
      CollectContext.condition, FieldGroup.add, op, decrement, increment]
  have five : Asks app.raw [] decrement.arguments 5 :=
    .int (by with_unfolding_all rfl) (coerce_int_of_fits (by decide))
  have two : Asks app.raw [] increment.arguments 2 :=
    .int (by with_unfolding_all rfl) (coerce_int_of_fits (by decide))
  have chosen : List.Forall₂ (Selects app.raw [])
      ((⟨app.raw, doc, []⟩ : CollectContext).collect "Mutation" op.selections) changes := by
    rw [collected]
    exact .cons ⟨rfl, ⟨[], rfl⟩, by decide, five⟩ (.cons ⟨rfl, ⟨[], rfl⟩, by decide, two⟩ .nil)
  have fits : ∀ n ∈ totals 20 changes, Fits n := by decide
  refine ⟨app, assembled, found, coerced, rfl, chosen, fits, ?_⟩
  exact ((counter_running_sums assembled doc req found coerced ⟨{ counter := 20 }, #[]⟩).1 rfl
    changes chosen).1 fits

end App

end GraphWeave
