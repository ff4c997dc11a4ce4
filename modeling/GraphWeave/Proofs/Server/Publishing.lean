import GraphWeave.Proofs.Telemetry.SpanPairing

/-!
What a request publishes: serving a request at `/graphql` publishes the events of one run, its
start, each operation's events and its finish, under the request's id.
-/

namespace GraphWeave.Server

open Telemetry

variable {σ : Type}

theorem Hub.emitAll_append (h : Hub) (a b : List Published) :
    h.emitAll (a ++ b) = (h.emitAll a).emitAll b := by
  simp [Hub.emitAll, List.foldl_append]

theorem Hub.emitAll_operation (h : Hub) (rid : String) (o : OperationRun) :
    h.emitAll (o.events.map (⟨·, some rid⟩)) =
      ((h.emit ⟨.graphqlStart o.query o.name o.type, some rid⟩).emitAll
        (o.calls.map fun c => ⟨c.finished, some rid⟩)).emit
        ⟨.graphqlFinish o.query o.name o.type o.errors ⟨0⟩, some rid⟩ := by
  simp only [OperationRun.events, List.map_cons, List.map_append, List.map_map,
    Hub.emitAll_append]
  rfl

/-! ### Running state-monad steps -/

theorem stateM_run_bind {S α β : Type} (m : StateM S α) (f : α → StateM S β) (st : S) :
    (m >>= f).run st = (f (m.run st).1).run (m.run st).2 := rfl

theorem stateM_run_get {S : Type} (st : S) : (get : StateM S S).run st = (st, st) := rfl

theorem stateM_run_set {S : Type} (st st' : S) : (set st' : StateM S PUnit).run st = (⟨⟩, st') :=
  rfl

theorem stateM_run_pure {S α : Type} (a : α) (st : S) : (pure a : StateM S α).run st = (a, st) :=
  rfl

@[simp] theorem publish_run (rid : String) (e : Event) (st : State σ) :
    (publish rid e).run st = ((), { st with hub := st.hub.emit ⟨e, some rid⟩ }) := rfl

theorem forIn_publish_run {α : Type} (rid : String) (g : α → Event) (xs : List α) (st : State σ) :
    (forIn xs PUnit.unit fun a _ => do
        publish rid (g a)
        pure (ForInStep.yield PUnit.unit) : StateM (State σ) PUnit).run st =
      (PUnit.unit, { st with hub := st.hub.emitAll (xs.map fun a => ⟨g a, some rid⟩) }) := by
  induction xs generalizing st with
  | nil => rfl
  | cons x rest ih =>
    simp only [List.forIn_cons, bind_assoc, stateM_run_bind, publish_run, pure_bind, ih]
    rfl

/-! ### Steps that publish whole operations -/

/-- A server step publishes, under the request id `rid`, the events of whole operations. -/
def PublishesOperations {α : Type} (rid : String) (m : StateM (State σ) α) : Prop :=
  ∀ st, ∃ ops : List OperationRun, (m.run st).2.hub =
    st.hub.emitAll ((ops.flatMap OperationRun.events).map fun e => ⟨e, some rid⟩)

namespace PublishesOperations

variable {rid : String} {α β : Type}

theorem pure (a : α) : PublishesOperations (σ := σ) rid (pure a) := fun _ => ⟨[], rfl⟩

theorem bind {m : StateM (State σ) α} {f : α → StateM (State σ) β}
    (first : PublishesOperations rid m) (rest : ∀ a, PublishesOperations rid (f a)) :
    PublishesOperations rid (m >>= f) := by
  intro st
  obtain ⟨ops, hub⟩ := first st
  obtain ⟨more, hub'⟩ := rest (m.run st).1 (m.run st).2
  refine ⟨ops ++ more, ?_⟩
  rw [stateM_run_bind]
  simp only [List.flatMap_append, List.map_append, Hub.emitAll_append, ← hub]
  exact hub'

theorem forIn {f : α → β → StateM (State σ) (ForInStep β)}
    (step : ∀ a b, PublishesOperations rid (f a b)) (xs : List α) (init : β) :
    PublishesOperations rid (forIn xs init f) := by
  induction xs generalizing init with
  | nil => exact pure init
  | cons x rest ih =>
    rw [List.forIn_cons]
    refine (step x init).bind fun next => ?_
    cases next with
    | done b => exact pure b
    | yield b => exact ih b

end PublishesOperations

section Lookup

variable (parse : DocumentParser) (lookup : OperationLookup) (s : ExecutableSchema σ) (opts : Options)

/-- Running one operation publishes nothing when it does not parse or is refused, and otherwise
its start, the resolver calls it made, and its finish. -/
theorem executeOne_publishes (md : Metadata) (rid : String) (req : GraphQLRequest)
    (allow : Bool) : PublishesOperations rid (executeOne parse lookup s opts md rid req allow) := by
  intro st
  unfold executeOne
  rcases parsed : parse req.query with e | doc
  · exact ⟨[], rfl⟩
  · simp only
    split <;> split
    all_goals first
      | exact ⟨[], rfl⟩
      | skip
    all_goals simp only [stateM_run_bind, publish_run, stateM_run_get]
    all_goals split
    all_goals simp only [stateM_run_bind, stateM_run_set, forIn_publish_run, publish_run]
    all_goals
      rename_i result session _
      refine ⟨[⟨req.query, req.operationName, ?_,
        session.calls.toList.drop st.session.calls.size, result.errors.map (·.message)⟩], ?_⟩
      rotate_left
      rw [List.flatMap_cons, List.flatMap_nil, List.append_nil, Hub.emitAll_operation]
      rfl

theorem respond_publishes (r : Http.Request) (rid : String) (base : Http.Response) :
    PublishesOperations rid (respond parse lookup s opts r rid base) := by
  unfold respond
  split
  · exact .pure _
  split
  · exact .pure _
  split
  · exact .pure _
  · refine .bind (.forIn (fun req _ => ?_) _ _) fun _ => .pure _
    exact (executeOne_publishes parse lookup s opts _ rid req true).bind fun _ => .pure _
  · exact (executeOne_publishes parse lookup s opts _ rid _ _).bind fun _ => .pure _

/-- Serving a request at `/graphql` publishes, under the id it takes or accepts, the events of
one request run: its start, its operations, and its finish with the status it answers. -/
theorem serveGraphQL_publishes_request (r : Http.Request) (st : State σ) :
    ∃ rid : String, rid = (if (r.header requestIdHeader).isEmpty then st.ids.take
        else st.ids.accept (r.header requestIdHeader)).1 ∧
      ∃ run : RequestRun, run.info = ⟨r.method, r.path⟩ ∧
        run.status = ((serveGraphQL parse lookup s opts r).run st).1.status ∧
        ((serveGraphQL parse lookup s opts r).run st).2.hub =
          st.hub.emitAll (run.events.map fun e => ⟨e, some rid⟩) := by
  unfold serveGraphQL
  simp only [stateM_run_bind, stateM_run_get]
  generalize (if (r.header requestIdHeader).isEmpty then st.ids.take
    else st.ids.accept (r.header requestIdHeader)) = assigned
  obtain ⟨rid, ids⟩ := assigned
  simp only [stateM_run_set, publish_run, stateM_run_pure]
  let info : HttpRequestInfo := ⟨r.method, r.path⟩
  obtain ⟨ops, answered⟩ := respond_publishes parse lookup s opts r rid
    (withCors opts r (({ status := 200 } : Http.Response).setHeader requestIdHeader rid))
    ({ st with hub := st.hub.emit ⟨.httpStart info, some rid⟩, ids } : State σ)
  refine ⟨rid, rfl, ⟨info, ops, _⟩, rfl, rfl, ?_⟩
  rw [answered]
  simp only [RequestRun.events, List.map_cons, List.map_append, Hub.emitAll_append]
  rfl

end Lookup

end GraphWeave.Server
