import GraphWeave.Server.Handler
import GraphWeave.Document.Parser
import Mathlib

/-!
GET requests never run a mutation. The server decides whether a request is a mutation before running
it, with the lookup the parser gives a document's operations and a fallback to a document's only
operation when no name is given.
-/

namespace GraphWeave

/-- What the server relies on of the parser's lookup: it answers the first operation of the
name, or nothing when there is none, except that with no name it may answer a document's only
operation. -/
def OperationLookup.Lawful (lookup : OperationLookup) : Prop :=
  ∀ ops name, lookup ops name = ops.find? (·.name == name) ∨
    (name = "" ∧ ∃ op, ops = [op] ∧ lookup ops name = some op)

theorem OperationLookup.standard_lawful : OperationLookup.Lawful OperationLookup.standard := by
  intro ops name
  unfold OperationLookup.standard
  split
  case h_1 op => exact Or.inr ⟨rfl, op, rfl, rfl⟩
  case h_2 => exact Or.inl rfl

theorem Document.operation?_of_lone {doc : Document} {op : Operation}
    (only : doc.operations = [op]) : doc.operation? "" = some op := by
  simp [Document.operation?, only]

theorem Document.operation?_of_not_lone {doc : Document} {name : String}
    (several : ∀ op, name = "" → doc.operations ≠ [op]) :
    doc.operation? name = doc.operations.find? (·.name == name) := by
  unfold Document.operation?
  split
  case h_1 op only => exact absurd only (several op rfl)
  case h_2 => rfl

namespace Server

variable {σ : Type} {parse : DocumentParser} {lookup : OperationLookup}

theorem lookup_lone (lawful : lookup.Lawful) {op found : Operation}
    (answer : lookup [op] "" = some found) : found = op := by
  rcases lawful [op] "" with first | ⟨-, only, same, second⟩
  case inl =>
    rw [first] at answer
    simp at answer
    exact answer.2.symm
  case inr =>
    obtain rfl := List.singleton_inj.mp same
    rw [second] at answer
    exact (Option.some.inj answer).symm

theorem requestedOperation_of_lone (lawful : lookup.Lawful) {doc : Document} {op : Operation}
    (only : doc.operations = [op]) : requestedOperation lookup doc "" = some op := by
  unfold requestedOperation
  rw [only]
  cases answer : lookup [op] ""
  case none => rfl
  case some found => rw [lookup_lone lawful answer]

theorem requestedOperation_of_not_lone (lawful : lookup.Lawful) {doc : Document} {name : String}
    (several : ∀ op, name = "" → doc.operations ≠ [op]) :
    requestedOperation lookup doc name = doc.operations.find? (·.name == name) := by
  have first : lookup doc.operations name = doc.operations.find? (·.name == name) := by
    rcases lawful doc.operations name with first | ⟨empty, op, only, -⟩
    case inl => exact first
    case inr => exact absurd only (several op empty)
  unfold requestedOperation
  rw [first]
  split
  case h_1 =>
    rename_i found
    exact found.symm
  case h_2 =>
    rename_i op only _
    exact absurd only (several op rfl)
  case h_3 =>
    rename_i found _
    exact found.symm

theorem requestedOperation_eq_operation? (lawful : lookup.Lawful) (doc : Document)
    (name : String) : requestedOperation lookup doc name = doc.operation? name := by
  by_cases lone : name = "" ∧ ∃ op, doc.operations = [op]
  case pos =>
    obtain ⟨rfl, op, only⟩ := lone
    rw [requestedOperation_of_lone lawful only, Document.operation?_of_lone only]
  case neg =>
    have several : ∀ op, name = "" → doc.operations ≠ [op] := fun op empty only =>
      lone ⟨empty, op, only⟩
    rw [requestedOperation_of_not_lone lawful several, Document.operation?_of_not_lone several]

theorem executeOne_refuses_mutation (lawful : lookup.Lawful) (s : ExecutableSchema σ)
    (opts : Options) (md : Metadata) (rid : String) (req : GraphQLRequest) {doc : Document}
    (parsed : parse req.query = .ok doc) {op : Operation}
    (picked : doc.operation? req.operationName = some op) (mutation : op.kind = .mutation)
    (st : State σ) :
    (executeOne parse lookup s opts md rid req false).run st =
      (requestError "mutations are only allowed over POST", st) := by
  have requested : requestedOperation lookup doc req.operationName = some op := by
    rw [requestedOperation_eq_operation? lawful, picked]
  simp [executeOne, parsed, requested, mutation, OperationKind.keyword]
  rfl

theorem fromQuery_single {r : Http.Request} {payload : Payload} (read : fromQuery r = .ok payload) :
    ∃ variableValues, payload = .single
      { query := r.param "query", operationName := r.param "operationName", variableValues } := by
  dsimp only [fromQuery] at read
  split at read
  case isTrue => cases read
  case isFalse =>
    split at read
    case h_1 => cases read
    case h_2 variableValues _ => exact ⟨variableValues, (Except.ok.inj read).symm⟩

/-- Answering a GET request whose operation is a mutation changes nothing. -/
theorem respond_get_mutation (lawful : lookup.Lawful) (s : ExecutableSchema σ) (opts : Options)
    {r : Http.Request} (get : r.method = "GET") {doc : Document}
    (parsed : parse (r.param "query") = .ok doc) {op : Operation}
    (picked : doc.operation? (r.param "operationName") = some op) (mutation : op.kind = .mutation)
    (rid : String) (base : Http.Response) (st : State σ) :
    ((respond parse lookup s opts r rid base).run st).2 = st := by
  unfold respond
  simp [get, payloadOf]
  cases read : fromQuery r
  case error => rfl
  case ok payload =>
    obtain ⟨variableValues, rfl⟩ := fromQuery_single read
    let req : GraphQLRequest :=
      { query := r.param "query", operationName := r.param "operationName", variableValues }
    dsimp only
    rw [StateT.run_map,
      executeOne_refuses_mutation lawful s opts _ rid req parsed picked mutation st]
    rfl

theorem serveGraphQL_keeps_session (s : ExecutableSchema σ) (opts : Options) (r : Http.Request)
    (keeps : ∀ rid base (st : State σ),
      ((respond parse lookup s opts r rid base).run st).2.session = st.session)
    (st : State σ) : ((serveGraphQL parse lookup s opts r).run st).2.session = st.session := by
  let supplied := r.header requestIdHeader
  let next := if supplied.isEmpty then st.ids.take else st.ids.accept supplied
  let started : State σ :=
    { st with ids := next.2, hub := st.hub.emit ⟨.httpStart ⟨r.method, r.path⟩, some next.1⟩ }
  exact keeps next.1
    (withCors opts r (({ status := 200 } : Http.Response).setHeader requestIdHeader next.1)) started

theorem serveWith_get_mutation (lawful : lookup.Lawful) (s : ExecutableSchema σ)
    (opts : Options) {r : Http.Request} (get : r.method = "GET") {doc : Document}
    (parsed : parse (r.param "query") = .ok doc) {op : Operation}
    (picked : doc.operation? (r.param "operationName") = some op) (mutation : op.kind = .mutation)
    (st : State σ) : ((serveWith parse lookup s opts r).run st).2.session = st.session := by
  unfold serveWith
  split
  case h_1 =>
    refine serveGraphQL_keeps_session s opts r (fun rid base st => ?_) st
    rw [respond_get_mutation lawful s opts get parsed picked mutation]
  all_goals rfl

/-- A GET request never runs a mutation: when the operation the executor would run is a
mutation, serving the request leaves the host state as it was, and the request its parameters
spell is refused, with the state untouched, before anything runs. -/
theorem get_never_runs_mutation (lawful : lookup.Lawful) (s : ExecutableSchema σ)
    (opts : Options) {r : Http.Request} (get : r.method = "GET") {doc : Document}
    (parsed : parse (r.param "query") = .ok doc) {op : Operation}
    (picked : doc.operation? (r.param "operationName") = some op) (mutation : op.kind = .mutation) :
    (∀ st : State σ, ((serveWith parse lookup s opts r).run st).2.session = st.session) ∧
    ∀ md rid variableValues (st : State σ),
      (executeOne parse lookup s opts md rid
          { query := r.param "query", operationName := r.param "operationName", variableValues }
          false).run st =
        (requestError "mutations are only allowed over POST", st) :=
  ⟨serveWith_get_mutation lawful s opts get parsed picked mutation,
    fun md rid variableValues st =>
      executeOne_refuses_mutation lawful s opts md rid
        { query := r.param "query", operationName := r.param "operationName", variableValues }
        parsed picked mutation st⟩

/-- A GET request naming the mutation of a document that also holds a query. -/
theorem get_named_mutation_refused :
    let r : Http.Request := { path := "/graphql"
                              query := [("query", "query look { a } mutation bump { b }"),
                                        ("operationName", "bump")] }
    (∀ st : State Unit, ((serve Document.parse ⟨{}, [], []⟩ {} r).run st).2.session = st.session) ∧
    ∀ md rid variableValues (st : State Unit),
      (executeOne Document.parse OperationLookup.standard ⟨{}, [], []⟩ {} md rid
          { query := r.param "query", operationName := r.param "operationName", variableValues }
          false).run st =
        (requestError "mutations are only allowed over POST", st) := by
  intro r
  let doc : Document :=
    ⟨[⟨.query, "look", [], [], [.field ⟨"a", "a", [], [], [], ⟨1, 14⟩⟩]⟩,
      ⟨.mutation, "bump", [], [], [.field ⟨"b", "b", [], [], [], ⟨1, 34⟩⟩]⟩], []⟩
  have parsed : Document.parse (r.param "query") = .ok doc := by cbv
  exact get_never_runs_mutation OperationLookup.standard_lawful _ {} rfl parsed rfl rfl

end Server

end GraphWeave
