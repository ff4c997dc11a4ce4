import GraphWeave.Server.Handler
import Mathlib

/-!
Spans of concurrent requests. The tracer keeps the open spans of each request by its request id, and
every event it hears acts on the spans of its own request id alone (`Tracer.record_view`,
`Tracer.record_ended`, `Tracer.record_view_other`).
-/

namespace GraphWeave.Telemetry

section Entries

variable {entries : List (String × Span)} {key key' : String} {s : Span}

theorem store_cons_ne {k : String} {t : Span} (other : k ≠ key) :
    store ((k, t) :: entries) key s = (k, t) :: store entries key s := by
  unfold store
  by_cases present : entries.any (·.1 == key) <;> simp [present, other]

theorem find?_cons_ne {k : String} {t : Span} (other : k ≠ key) :
    find? ((k, t) :: entries) key = find? entries key := by
  simp [find?, other]

@[simp] theorem find?_store_self : find? (store entries key s) key = some s := by
  induction entries with
  | nil => simp [store, find?]
  | cons e rest ih =>
    obtain ⟨k, t⟩ := e
    by_cases same : k = key
    · subst same
      simp [store, find?]
    · rw [store_cons_ne same, find?_cons_ne same, ih]

theorem find?_map_of_fixes (f : String × Span → String × Span) (keeps : ∀ e, (f e).1 = e.1)
    (fixes : ∀ e, e.1 = key' → f e = e) : find? (entries.map f) key' = find? entries key' := by
  induction entries with
  | nil => rfl
  | cons e rest ih =>
    by_cases here : e.1 = key'
    · simp [find?, fixes e here, here]
    · have skip : ((f e).1 == key') = false := by simp [keeps, here]
      have skip' : (e.1 == key') = false := by simp [here]
      simp only [find?, List.map_cons, List.find?_cons, skip, skip']
      exact ih

theorem find?_store_other (other : key' ≠ key) :
    find? (store entries key s) key' = find? entries key' := by
  induction entries with
  | nil => simp [store, find?, Ne.symm other]
  | cons e rest ih =>
    obtain ⟨k, t⟩ := e
    by_cases same : k = key
    · subst same
      have present : ((k, t) :: rest).any (·.1 == k) = true := by simp
      rw [store, if_pos present]
      refine find?_map_of_fixes _ (fun e => ?_) (fun e keyed => ?_)
      · obtain ⟨k', t'⟩ := e
        by_cases same : k' = k <;> simp [same]
      · obtain ⟨k', t'⟩ := e
        simp only at keyed
        subst keyed
        simp [other]
    · rw [store_cons_ne same]
      by_cases here : k = key'
      · subst here; simp [find?]
      · rw [find?_cons_ne here, find?_cons_ne here, ih]

@[simp] theorem find?_remove_self : find? (remove entries key) key = none := by
  simp [remove, find?]

theorem find?_remove_other (other : key' ≠ key) :
    find? (remove entries key) key' = find? entries key' := by
  have kept : (fun e : String × Span => !decide (e.1 = key) && decide (e.1 = key')) =
      fun e => e.1 == key' := by
    funext e
    by_cases here : e.1 = key' <;> simp [here, other]
  simp [remove, find?, List.find?_filter, kept]

theorem eq_nil_of_find?_none (none : ∀ k, find? entries k = none) : entries = [] := by
  cases entries with
  | nil => rfl
  | cons e rest => simpa [find?] using none e.1

end Entries

namespace Tracer

/-- The open spans of a request id: its HTTP request's and its operation's. -/
def view (t : Tracer) (rid : String) : Option Span × Option Span :=
  (find? t.httpSpans rid, find? t.operationSpans rid)

variable {t t' : Tracer} {r r' : String}

theorem record_view (e : Event) (same : t.view r = t'.view r) :
    (t.record (some r) e).view r = (t'.record (some r) e).view r := by
  simp only [view, Prod.mk.injEq] at same ⊢
  obtain ⟨http, operation⟩ := same
  cases e <;> simp only [record, http, operation]
  all_goals (repeat' split) <;> simp_all

theorem record_ended (e : Event) (same : t.view r = t'.view r) :
    ∃ X, (t.record (some r) e).ended = t.ended ++ X ∧ (t'.record (some r) e).ended = t'.ended ++ X := by
  simp only [view, Prod.mk.injEq] at same
  obtain ⟨http, operation⟩ := same
  cases e <;> simp only [record, http]
  all_goals (repeat' split) <;> simp_all

theorem record_view_other (e : Event) (other : r' ≠ r) :
    (t.record (some r) e).view r' = t.view r' := by
  cases e <;> simp only [record]
  all_goals (repeat' split) <;> simp_all [view, find?_store_other, find?_remove_other]

/-- Events published under one request id, heard in order. -/
def feed (t : Tracer) (rid : String) (events : List Event) : Tracer :=
  events.foldl (fun t e => t.record (some rid) e) t

/-- What one request's events do to a tracer that hears nothing else. -/
def alone (rid : String) (events : List Event) : Tracer := ({} : Tracer).feed rid events

/-- Published events, heard in order. -/
def hear (t : Tracer) (run : List Published) : Tracer :=
  run.foldl (fun t p => t.record p.requestId p.event) t

@[simp] theorem feed_nil : t.feed r [] = t := rfl

@[simp] theorem feed_cons (e : Event) (events : List Event) :
    t.feed r (e :: events) = (t.record (some r) e).feed r events := rfl

theorem feed_append (events more : List Event) :
    t.feed r (events ++ more) = (t.feed r events).feed r more := by
  simp [feed, List.foldl_append]

theorem hear_append_single (run : List Published) (p : Published) :
    t.hear (run ++ [p]) = (t.hear run).record p.requestId p.event := by
  simp [hear, List.foldl_append]

end Tracer

/-- The events of a run published under a request id, in order. -/
def eventsOf (rid : String) (run : List Published) : List Event :=
  (run.filter (·.requestId == some rid)).map (·.event)

theorem eventsOf_append_single (rid : String) (run : List Published) (p : Published) :
    eventsOf rid (run ++ [p]) =
      eventsOf rid run ++ if p.requestId = some rid then [p.event] else [] := by
  unfold eventsOf
  by_cases own : p.requestId = some rid <;> simp [own]

/-- Extending the spans of one of distinct request ids by `X` extends their concatenation by `X`,
up to order. -/
theorem flatMap_perm_extend {rids : List String} (nodup : rids.Nodup) {rid : String}
    (mem : rid ∈ rids) {g g' : String → List Span} {X : List Span} (here : g' rid = g rid ++ X)
    (elsewhere : ∀ r, r ≠ rid → g' r = g r) :
    (rids.flatMap g').Perm (rids.flatMap g ++ X) := by
  induction rids with
  | nil => cases mem
  | cons a rest ih =>
    obtain ⟨fresh, nodup⟩ := List.nodup_cons.mp nodup
    simp only [List.flatMap_cons, List.append_assoc]
    by_cases same : a = rid
    · subst same
      have untouched : rest.flatMap g' = rest.flatMap g :=
        List.flatMap_congr fun r member => elsewhere r fun same => fresh (same ▸ member)
      rw [here, untouched, List.append_assoc]
      exact List.Perm.append_left _ List.perm_append_comm
    · rw [elsewhere a same]
      exact List.Perm.append_left _ (ih nodup ((List.mem_cons.mp mem).resolve_left (Ne.symm same)))

section Interleaving

variable (t₀ : Tracer) (rids : List String)

/-- A tracer that heard some of the events of requests with the given ids keeps, for each id, the
open spans that its events left when heard alone, and has ended, since `t₀`, the spans they
ended alone, in some order; the open spans of other ids are those of `t₀`. -/
structure Simulates (done : List Published) (t : Tracer) : Prop where
  own : ∀ rid ∈ rids, t.view rid = (Tracer.alone rid (eventsOf rid done)).view rid
  others : ∀ rid, rid ∉ rids → t.view rid = t₀.view rid
  ended : ∃ L, t.ended = t₀.ended ++ L ∧
    L.Perm (rids.flatMap fun rid => (Tracer.alone rid (eventsOf rid done)).ended)

variable {t₀ rids}

theorem Simulates.init (idle : ∀ rid ∈ rids, t₀.view rid = (none, none)) :
    Simulates t₀ rids [] t₀ where
  own rid member := by rw [idle rid member]; rfl
  others _ _ := rfl
  ended := ⟨[], by simp, by simp [eventsOf, Tracer.alone]⟩

/-- Hearing one more event of a request with one of the ids keeps the simulation. -/
theorem Simulates.step (nodup : rids.Nodup) {done : List Published} {t : Tracer}
    (sim : Simulates t₀ rids done t) {p : Published} {rid : String} (own : p.requestId = some rid)
    (mem : rid ∈ rids) : Simulates t₀ rids (done ++ [p]) (t.record p.requestId p.event) := by
  have extended : ∀ r, Tracer.alone r (eventsOf r (done ++ [p])) =
      if r = rid then (Tracer.alone r (eventsOf r done)).record (some rid) p.event
      else Tracer.alone r (eventsOf r done) := by
    intro r
    by_cases same : r = rid
    · subst same
      simp [eventsOf_append_single, own, Tracer.alone, Tracer.feed_append]
    · have other : p.requestId ≠ some r := by simp [own, Ne.symm same]
      simp [eventsOf_append_single, other, same]
  rw [own]
  obtain ⟨X, heard, alone⟩ := Tracer.record_ended p.event (sim.own rid mem)
  refine ⟨fun r member => ?_, fun r outside => ?_, ?_⟩
  · rw [extended r]
    by_cases same : r = rid
    · subst same
      simpa using Tracer.record_view p.event (sim.own r member)
    · rw [if_neg same, Tracer.record_view_other _ same]
      exact sim.own r member
  · have other : r ≠ rid := fun same => outside (same ▸ mem)
    rw [Tracer.record_view_other _ other]
    exact sim.others r outside
  · obtain ⟨L, before, perm⟩ := sim.ended
    refine ⟨L ++ X, by rw [heard, before, List.append_assoc], ?_⟩
    refine (perm.append_right X).trans (flatMap_perm_extend nodup mem ?_ ?_).symm
    · simp [extended, alone]
    · intro r other
      simp [extended, other]

theorem Simulates.run (nodup : rids.Nodup) (idle : ∀ rid ∈ rids, t₀.view rid = (none, none))
    (run : List Published) (belongs : ∀ p ∈ run, ∃ rid ∈ rids, p.requestId = some rid) :
    Simulates t₀ rids run (t₀.hear run) := by
  induction run using List.reverseRecOn with
  | nil => exact Simulates.init idle
  | append_singleton done p ih =>
    obtain ⟨rid, mem, own⟩ := belongs p (by simp)
    rw [Tracer.hear_append_single]
    exact (ih fun q member => belongs q (by simp [member])).step nodup own mem

end Interleaving

end GraphWeave.Telemetry

namespace GraphWeave

/-- The event of a finished resolver call; time is not modelled. -/
def ResolverCall.finished (c : ResolverCall) : Event :=
  .resolverFinish c.objectType c.field c.async c.error ⟨0⟩

namespace Telemetry

/-! ### What one request publishes -/

/-- An operation run over HTTP: the query, operation name and type it was started with, the
resolver calls it made, and the messages of its errors. -/
structure OperationRun where
  query : String
  name : String
  type : String
  calls : List ResolverCall
  errors : List String

/-- What an operation run publishes: its start, its finished resolver calls, its finish. -/
def OperationRun.events (o : OperationRun) : List Event :=
  .graphqlStart o.query o.name o.type :: o.calls.map ResolverCall.finished ++
    [.graphqlFinish o.query o.name o.type o.errors ⟨0⟩]

/-- A request served over HTTP: what telemetry sees of it, the operations it ran, its status. -/
structure RequestRun where
  info : HttpRequestInfo
  operations : List OperationRun
  status : Nat

/-- What a request publishes: its start, its operations' events, its finish. -/
def RequestRun.events (r : RequestRun) : List Event :=
  .httpStart r.info :: r.operations.flatMap OperationRun.events ++ [.httpFinish r.info r.status ⟨0⟩]

/-- The spans one request ends: a span per operation, whose parent is the request's span, then
the request's span, carrying its request id. -/
def EndsRequest (rid : String) (operations : Nat) (spans : List Span) : Prop :=
  ∃ operationSpans http, spans = operationSpans ++ [http] ∧
    operationSpans.length = operations ∧
    (∀ s ∈ operationSpans, s.name = "graphql.operation" ∧ s.parent = "http.request") ∧
    http.name = "http.request" ∧ http.parent = "" ∧ ("request.id", .text rid) ∈ http.attributes

theorem Attributes.mem_set {attrs : Attributes} {k key : String} {v w : AttributeValue}
    (member : (k, v) ∈ attrs) (other : k ≠ key) : (k, v) ∈ attrs.set key w := by
  unfold Attributes.set
  split
  · exact List.mem_map.mpr ⟨(k, v), member, by simp [other]⟩
  · exact List.mem_append_left _ member

@[simp] theorem store_nil (key : String) (s : Span) : store [] key s = [(key, s)] := rfl

@[simp] theorem store_single (key : String) (s s' : Span) : store [(key, s)] key s' = [(key, s')] := by
  simp [store]

@[simp] theorem remove_single (key : String) (s : Span) : remove [(key, s)] key = [] := by
  simp [remove]

@[simp] theorem find?_single (key : String) (s : Span) : find? [(key, s)] key = some s := by
  simp [find?]

namespace Tracer

variable {t : Tracer} {r : String}

/-- Resolver calls only add events to the open operation span. -/
theorem feed_calls {o : Span} (only : t.operationSpans = [(r, o)]) (calls : List ResolverCall) :
    ∃ o', (t.feed r (calls.map ResolverCall.finished)).operationSpans = [(r, o')] ∧
      o'.name = o.name ∧ o'.parent = o.parent ∧
      (t.feed r (calls.map ResolverCall.finished)).httpSpans = t.httpSpans ∧
      (t.feed r (calls.map ResolverCall.finished)).ended = t.ended := by
  induction calls generalizing t o with
  | nil => exact ⟨o, by simpa using only, rfl, rfl, rfl, rfl⟩
  | cons c rest ih =>
    rw [List.map_cons, feed_cons]
    cases failed : c.error with
    | none =>
      have same : t.record (some r) c.finished = t := by simp [record, ResolverCall.finished, failed]
      rw [same]
      exact ih only
    | some message =>
      obtain ⟨o', spans, name, parent, http, ended⟩ := ih (t := t.record (some r) c.finished)
        (o := { o with events := o.events ++ [⟨"exception", [("exception.message", .text message),
          ("graphql.field", .text (c.objectType ++ "." ++ c.field)), ("graphql.async", .bool c.async)]⟩] })
        (by simp [record, ResolverCall.finished, failed, only])
      exact ⟨o', spans, name, parent,
        http.trans (by simp [record, ResolverCall.finished, failed, only]),
        ended.trans (by simp [record, ResolverCall.finished, failed, only])⟩

theorem record_finish_only {o : Span} (only : t.operationSpans = [(r, o)]) (query name type : String)
    (errors : List String) (d : Duration) :
    (t.record (some r) (.graphqlFinish query name type errors d)).httpSpans = t.httpSpans ∧
      (t.record (some r) (.graphqlFinish query name type errors d)).operationSpans = [] ∧
      ∃ s, (t.record (some r) (.graphqlFinish query name type errors d)).ended = t.ended ++ [s] ∧
        s.name = o.name ∧ s.parent = o.parent := by
  simp only [record, Option.getD_some, only, find?_single, remove_single]
  refine ⟨trivial, trivial, _, rfl, ?_, ?_⟩ <;> split <;> rfl

theorem record_request_finish_only {h : Span} (only : t.httpSpans = [(r, h)])
    (info : HttpRequestInfo) (status : Nat) (d : Duration) :
    (t.record (some r) (.httpFinish info status d)).httpSpans = [] ∧
      (t.record (some r) (.httpFinish info status d)).operationSpans = t.operationSpans ∧
      ∃ s, (t.record (some r) (.httpFinish info status d)).ended = t.ended ++ [s] ∧
        s.name = h.name ∧ s.parent = h.parent ∧
        ∀ a ∈ h.attributes, a.1 ≠ "http.status_code" → a ∈ s.attributes := by
  simp only [record, Option.getD_some, only, find?_single, remove_single]
  refine ⟨trivial, trivial, _, rfl, ?_, ?_, fun a member other => ?_⟩
  all_goals split
  all_goals first | rfl | exact Attributes.mem_set member other

/-- An operation run while its request's span is open ends one span, whose parent is that span,
and leaves no operation span open. -/
theorem feed_operation (o : OperationRun) (idle : t.operationSpans = [])
    (opened : (find? t.httpSpans r).isSome) :
    (t.feed r o.events).httpSpans = t.httpSpans ∧ (t.feed r o.events).operationSpans = [] ∧
      ∃ s, (t.feed r o.events).ended = t.ended ++ [s] ∧
        s.name = "graphql.operation" ∧ s.parent = "http.request" := by
  let started := t.record (some r) (.graphqlStart o.query o.name o.type)
  have start : started.operationSpans =
      [(r, { name := "graphql.operation", parent := "http.request",
             attributes := [("graphql.operation.name", .text o.name),
               ("graphql.operation.type", .text o.type)] })] := by
    simp [started, record, idle, opened]
  obtain ⟨o', spans, name, parent, http, ended⟩ := feed_calls start o.calls
  have unfolded : t.feed r o.events = (started.feed r (o.calls.map ResolverCall.finished)).record
      (some r) (.graphqlFinish o.query o.name o.type o.errors ⟨0⟩) := by
    simp [OperationRun.events, feed_append, started]
  obtain ⟨http', idle', s, ended', name', parent'⟩ := record_finish_only spans o.query o.name o.type
    o.errors ⟨0⟩
  rw [unfolded]
  exact ⟨http'.trans http, idle', s, by rw [ended', ended]; rfl, name'.trans name,
    parent'.trans parent⟩

/-- Operations run one after another while their request's span is open end one span each,
whose parent is that span. -/
theorem feed_operations (ops : List OperationRun) (idle : t.operationSpans = [])
    (opened : (find? t.httpSpans r).isSome) :
    (t.feed r (ops.flatMap OperationRun.events)).httpSpans = t.httpSpans ∧
      (t.feed r (ops.flatMap OperationRun.events)).operationSpans = [] ∧
      ∃ spans, (t.feed r (ops.flatMap OperationRun.events)).ended = t.ended ++ spans ∧
        spans.length = ops.length ∧
        ∀ s ∈ spans, s.name = "graphql.operation" ∧ s.parent = "http.request" := by
  induction ops generalizing t with
  | nil => exact ⟨rfl, idle, [], by simp, rfl, by simp⟩
  | cons o rest ih =>
    obtain ⟨http, operations, s, ended, name, parent⟩ := feed_operation o idle opened
    obtain ⟨http', operations', spans, ended', length, each⟩ :=
      ih operations (by rw [http]; exact opened)
    rw [List.flatMap_cons, feed_append]
    refine ⟨http'.trans http, operations', s :: spans, by simp [ended', ended], by simp [length], ?_⟩
    intro s' member
    rcases List.mem_cons.mp member with rfl | later
    · exact ⟨name, parent⟩
    · exact each s' later

end Tracer

/-- A request heard alone ends one span per operation, whose parent is its span, then its span,
and leaves nothing open. -/
theorem RequestRun.alone_ends (req : RequestRun) (rid : String) :
    (Tracer.alone rid req.events).httpSpans = [] ∧
      (Tracer.alone rid req.events).operationSpans = [] ∧
      EndsRequest rid req.operations.length (Tracer.alone rid req.events).ended := by
  let started := ({} : Tracer).record (some rid) (.httpStart req.info)
  have opened : started.httpSpans =
      [(rid, { name := "http.request",
               attributes := [("http.method", .text req.info.method),
                 ("http.target", .text req.info.path), ("request.id", .text rid)] })] := by
    simp [started, Tracer.record]
  obtain ⟨http, operations, spans, ended, length, each⟩ :=
    Tracer.feed_operations (t := started) (r := rid) req.operations (by simp [started, Tracer.record])
      (by simp [opened])
  have unfolded : Tracer.alone rid req.events =
      (started.feed rid (req.operations.flatMap OperationRun.events)).record (some rid)
        (.httpFinish req.info req.status ⟨0⟩) := by
    simp [Tracer.alone, RequestRun.events, Tracer.feed_append, started]
  obtain ⟨http', operations', s, ended', name, parent, kept⟩ :=
    Tracer.record_request_finish_only (http.trans opened) req.info req.status ⟨0⟩
  rw [unfolded]
  refine ⟨http', operations'.trans operations, spans, s, ?_, length, each, name, parent,
    kept _ (by simp) (by simp)⟩
  rw [ended', ended]
  simp [started, Tracer.record]

/-! ### The tracer on a bus -/

/-- A hub whose tracer is subscribed once to each kind of event it consumes. -/
def Hub.TracerAttached (h : Hub) : Prop :=
  ∀ k ∈ Tracer.kinds, (h.bus.handlers k).count .tracer = 1

theorem Tracer.record_of_not_mem {t : Tracer} {e : Event} (other : e.kind ∉ Tracer.kinds)
    (rid : Option String) : t.record rid e = t := by
  cases e <;> simp_all [Tracer.kinds, Event.kind, record]

/-- An emitted event reaches the tracer once per subscription of the tracer to its kind. -/
theorem Hub.emit_tracer_iterate (h : Hub) (p : Published) :
    (h.emit p).tracer =
      (fun t => t.record p.requestId p.event)^[(h.bus.handlers p.event.kind).count .tracer]
        h.tracer ∧ (h.emit p).bus = h.bus := by
  unfold emit
  generalize h.bus.handlers p.event.kind = consumers
  induction consumers generalizing h with
  | nil => exact ⟨rfl, rfl⟩
  | cons c rest ih =>
    rw [List.foldl_cons]
    cases c with
    | metrics =>
      obtain ⟨tracer, bus⟩ := ih { h with metrics := h.metrics.record p.event }
      exact ⟨by simpa using tracer, bus⟩
    | tracer =>
      obtain ⟨tracer, bus⟩ := ih { h with tracer := h.tracer.record p.requestId p.event }
      exact ⟨by simpa [Function.iterate_succ_apply] using tracer, bus⟩

theorem Hub.emit_tracer {h : Hub} (attached : h.TracerAttached) (p : Published) :
    (h.emit p).tracer = h.tracer.record p.requestId p.event ∧ (h.emit p).bus = h.bus := by
  obtain ⟨tracer, bus⟩ := h.emit_tracer_iterate p
  refine ⟨?_, bus⟩
  by_cases consumed : p.event.kind ∈ Tracer.kinds
  · rw [tracer, attached _ consumed]
    rfl
  · rw [tracer, Tracer.record_of_not_mem consumed]
    exact Function.iterate_fixed (Tracer.record_of_not_mem consumed _) _

theorem Hub.emitAll_tracer {h : Hub} (attached : h.TracerAttached) (run : List Published) :
    (h.emitAll run).tracer = h.tracer.hear run := by
  induction run generalizing h with
  | nil => rfl
  | cons p rest ih =>
    obtain ⟨tracer, bus⟩ := Hub.emit_tracer attached p
    have attached' : (h.emit p).TracerAttached := by
      intro k member
      rw [bus]
      exact attached k member
    simp only [emitAll, List.foldl_cons] at ih ⊢
    rw [ih attached', tracer]
    rfl

/-! ### Spans of concurrent requests -/

/-- A run of published events interleaves the events of some requests, each under its request
id: every event is one of theirs, and each request's events come in its own order. -/
def Interleaves (requests : List (String × RequestRun)) (run : List Published) : Prop :=
  (∀ p ∈ run, ∃ r ∈ requests, p.requestId = some r.1) ∧
    ∀ r ∈ requests, eventsOf r.1 run = r.2.events

/-- Spans are paired for requests with distinct ids. Requests with distinct request ids publish
their events, interleaved in any order, to a bus that the tracer is attached to. Then no span is
left open, and the spans ended are, up to order, those of the requests one by one: for each, a
span per operation it ran, whose parent is its request's span, then its request's span, carrying
its id. So every span started is ended exactly once. -/
theorem spans_paired_of_distinct_ids {h : Hub} (attached : h.TracerAttached)
    (idle : h.tracer.httpSpans = [] ∧ h.tracer.operationSpans = [])
    {requests : List (String × RequestRun)} (distinct : (requests.map (·.1)).Nodup)
    {run : List Published} (interleaved : Interleaves requests run) :
    (h.emitAll run).tracer.httpSpans = [] ∧ (h.emitAll run).tracer.operationSpans = [] ∧
      ∃ L, (h.emitAll run).tracer.ended = h.tracer.ended ++ L ∧
        ∃ perRequest : List (List Span), L.Perm perRequest.flatten ∧
          List.Forall₂ (fun r spans => EndsRequest r.1 r.2.operations.length spans)
            requests perRequest := by
  rw [Hub.emitAll_tracer attached]
  have idleViews : ∀ rid ∈ requests.map (·.1), h.tracer.view rid = (none, none) := by
    simp [Tracer.view, idle, find?]
  have belongs : ∀ p ∈ run, ∃ rid ∈ requests.map (·.1), p.requestId = some rid := by
    intro p member
    obtain ⟨r, mem, own⟩ := interleaved.1 p member
    exact ⟨r.1, List.mem_map_of_mem mem, own⟩
  have sim := Simulates.run distinct idleViews run belongs
  have closed : ∀ rid, (h.tracer.hear run).view rid = (none, none) := by
    intro rid
    by_cases mem : rid ∈ requests.map (·.1)
    · obtain ⟨r, member, rfl⟩ := List.mem_map.mp mem
      obtain ⟨http, operations, -⟩ := RequestRun.alone_ends r.2 r.1
      rw [sim.own _ mem, interleaved.2 r member]
      simp [Tracer.view, http, operations, find?]
    · rw [sim.others rid mem]
      simp [Tracer.view, idle, find?]
  refine ⟨eq_nil_of_find?_none fun k => congrArg Prod.fst (closed k),
    eq_nil_of_find?_none fun k => congrArg Prod.snd (closed k), ?_⟩
  obtain ⟨L, ended, perm⟩ := sim.ended
  refine ⟨L, ended, requests.map fun r => (Tracer.alone r.1 r.2.events).ended, ?_, ?_⟩
  · rw [← List.flatMap_def]
    rw [List.flatMap_map] at perm
    refine perm.trans (List.Perm.of_eq (List.flatMap_congr fun r member => ?_))
    simp [interleaved.2 r member]
  · refine List.forall₂_map_right_iff.mpr (List.forall₂_same.mpr fun r _ => ?_)
    exact (RequestRun.alone_ends r.2 r.1).2.2

/-- Two requests with ids `a` and `b`, each without operations, start one after the other and
finish in the same order; their spans end once each. -/
theorem distinct_ids_pair_spans :
    (({} : Hub).subscribeMetrics.1.subscribeTracer.1).TracerAttached ∧
      ((({} : Hub).subscribeMetrics.1.subscribeTracer.1).tracer.httpSpans = [] ∧
        (({} : Hub).subscribeMetrics.1.subscribeTracer.1).tracer.operationSpans = []) ∧
      (([("a", ⟨⟨"POST", "/graphql"⟩, [], 200⟩), ("b", ⟨⟨"POST", "/graphql"⟩, [], 200⟩)] :
        List (String × RequestRun)).map (·.1)).Nodup ∧
      Interleaves [("a", ⟨⟨"POST", "/graphql"⟩, [], 200⟩), ("b", ⟨⟨"POST", "/graphql"⟩, [], 200⟩)]
        [⟨.httpStart ⟨"POST", "/graphql"⟩, some "a"⟩, ⟨.httpStart ⟨"POST", "/graphql"⟩, some "b"⟩,
          ⟨.httpFinish ⟨"POST", "/graphql"⟩ 200 ⟨0⟩, some "a"⟩,
          ⟨.httpFinish ⟨"POST", "/graphql"⟩ 200 ⟨0⟩, some "b"⟩] ∧
      ((({} : Hub).subscribeMetrics.1.subscribeTracer.1).emitAll
          [⟨.httpStart ⟨"POST", "/graphql"⟩, some "a"⟩, ⟨.httpStart ⟨"POST", "/graphql"⟩, some "b"⟩,
            ⟨.httpFinish ⟨"POST", "/graphql"⟩ 200 ⟨0⟩, some "a"⟩,
            ⟨.httpFinish ⟨"POST", "/graphql"⟩ 200 ⟨0⟩, some "b"⟩]).tracer.httpSpans = [] ∧
      ((({} : Hub).subscribeMetrics.1.subscribeTracer.1).emitAll
          [⟨.httpStart ⟨"POST", "/graphql"⟩, some "a"⟩, ⟨.httpStart ⟨"POST", "/graphql"⟩, some "b"⟩,
            ⟨.httpFinish ⟨"POST", "/graphql"⟩ 200 ⟨0⟩, some "a"⟩,
            ⟨.httpFinish ⟨"POST", "/graphql"⟩ 200 ⟨0⟩, some "b"⟩]).tracer.operationSpans = [] ∧
      ∃ L, ((({} : Hub).subscribeMetrics.1.subscribeTracer.1).emitAll
          [⟨.httpStart ⟨"POST", "/graphql"⟩, some "a"⟩, ⟨.httpStart ⟨"POST", "/graphql"⟩, some "b"⟩,
            ⟨.httpFinish ⟨"POST", "/graphql"⟩ 200 ⟨0⟩, some "a"⟩,
            ⟨.httpFinish ⟨"POST", "/graphql"⟩ 200 ⟨0⟩, some "b"⟩]).tracer.ended =
          (({} : Hub).subscribeMetrics.1.subscribeTracer.1).tracer.ended ++ L ∧
        ∃ perRequest : List (List Span), L.Perm perRequest.flatten ∧
          List.Forall₂ (fun (r : String × RequestRun) spans =>
              EndsRequest r.1 r.2.operations.length spans)
            [("a", ⟨⟨"POST", "/graphql"⟩, [], 200⟩), ("b", ⟨⟨"POST", "/graphql"⟩, [], 200⟩)]
            perRequest := by
  have attached : (({} : Hub).subscribeMetrics.1.subscribeTracer.1).TracerAttached := by
    unfold Hub.TracerAttached
    decide
  have idle : (({} : Hub).subscribeMetrics.1.subscribeTracer.1).tracer.httpSpans = [] ∧
      (({} : Hub).subscribeMetrics.1.subscribeTracer.1).tracer.operationSpans = [] := by
    decide
  have distinct : (([("a", ⟨⟨"POST", "/graphql"⟩, [], 200⟩), ("b", ⟨⟨"POST", "/graphql"⟩, [], 200⟩)] :
      List (String × RequestRun)).map (·.1)).Nodup := by decide
  have interleaved : Interleaves
      [("a", ⟨⟨"POST", "/graphql"⟩, [], 200⟩), ("b", ⟨⟨"POST", "/graphql"⟩, [], 200⟩)]
      [⟨.httpStart ⟨"POST", "/graphql"⟩, some "a"⟩, ⟨.httpStart ⟨"POST", "/graphql"⟩, some "b"⟩,
        ⟨.httpFinish ⟨"POST", "/graphql"⟩ 200 ⟨0⟩, some "a"⟩,
        ⟨.httpFinish ⟨"POST", "/graphql"⟩ 200 ⟨0⟩, some "b"⟩] := by
    constructor
    · simp
    · simp [eventsOf, RequestRun.events]
  exact ⟨attached, idle, distinct, interleaved,
    spans_paired_of_distinct_ids attached idle distinct interleaved⟩

/-- Two requests that supply the same UUID keep it as their request id. When both start before
either finishes, the second start replaces the first request's span, which never ends: two
spans start and one ends. -/
theorem shared_id_loses_span :
    (RequestId.Supply.accept {} "123e4567-e89b-12d3-a456-426614174000").1 =
        "123e4567-e89b-12d3-a456-426614174000" ∧
      ((({} : Hub).subscribeMetrics.1.subscribeTracer.1).emitAll
          [⟨.httpStart ⟨"POST", "/graphql"⟩, some "123e4567-e89b-12d3-a456-426614174000"⟩,
            ⟨.httpStart ⟨"POST", "/graphql"⟩, some "123e4567-e89b-12d3-a456-426614174000"⟩,
            ⟨.httpFinish ⟨"POST", "/graphql"⟩ 200 ⟨0⟩, some "123e4567-e89b-12d3-a456-426614174000"⟩,
            ⟨.httpFinish ⟨"POST", "/graphql"⟩ 200 ⟨0⟩,
              some "123e4567-e89b-12d3-a456-426614174000"⟩]).tracer.ended.length = 1 := by
  have attached : (({} : Hub).subscribeMetrics.1.subscribeTracer.1).TracerAttached := by
    unfold Hub.TracerAttached
    decide
  refine ⟨by decide +kernel, ?_⟩
  rw [Hub.emitAll_tracer attached]
  decide

end Telemetry

end GraphWeave
