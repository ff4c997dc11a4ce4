import GraphWeave.Events.Event

/-!
Tracing fed from events: a span for each HTTP request and for each GraphQL operation, found again by
the request id of the events' context.
-/

namespace GraphWeave.Telemetry

/-- The status of a span. -/
inductive SpanStatus where
  | unset
  | error
  | ok
deriving DecidableEq, Repr, Inhabited

/-- The name of a span status. -/
def SpanStatus.name : SpanStatus → String
  | .unset => "Unset"
  | .error => "Error"
  | .ok => "Ok"

/-- An attribute value. -/
inductive AttributeValue where
  | text (s : String)
  | int (n : Int)
  | bool (b : Bool)
deriving DecidableEq, Repr, Inhabited

/-- The text of an attribute value. -/
def AttributeValue.render : AttributeValue → String
  | .text s => s
  | .int n => toString n
  | .bool b => toString b

/-- Attributes by key; setting a key again replaces its value. -/
abbrev Attributes := List (String × AttributeValue)

/-- Sets an attribute. -/
def Attributes.set (attrs : Attributes) (key : String) (v : AttributeValue) : Attributes :=
  if attrs.any (·.1 == key) then attrs.map fun (k, w) => if k == key then (k, v) else (k, w)
  else attrs ++ [(key, v)]

/-- An event recorded on a span. -/
structure SpanEvent where
  name : String
  attributes : Attributes
deriving Repr, Inhabited

/-- A span: its name, its parent's name (empty for none), attributes, status and events. -/
structure Span where
  name : String
  parent : String := ""
  attributes : Attributes := []
  status : SpanStatus := .unset
  statusText : String := ""
  events : List SpanEvent := []
deriving Repr, Inhabited

/-- The open spans by request id, and the ended spans in the order they ended. -/
structure Tracer where
  httpSpans : List (String × Span) := []
  operationSpans : List (String × Span) := []
  ended : List Span := []
deriving Inhabited

/-- Sets the entry of a key, in place when present. -/
def store (entries : List (String × Span)) (key : String) (s : Span) : List (String × Span) :=
  if entries.any (·.1 == key) then entries.map fun (k, t) => if k == key then (k, s) else (k, t)
  else entries ++ [(key, s)]

/-- The entry of a key. -/
def find? (entries : List (String × Span)) (key : String) : Option Span :=
  (entries.find? (·.1 == key)).map (·.2)

/-- Removes the entry of a key. -/
def remove (entries : List (String × Span)) (key : String) : List (String × Span) :=
  entries.filter (·.1 != key)

namespace Tracer

/-- The kinds of events tracing consumes. -/
def kinds : List EventKind := [.httpStart, .httpFinish, .graphqlStart, .graphqlFinish, .resolverFinish]

/-- Updates the spans with an event published under a request id. -/
def record (t : Tracer) (requestId : Option String) : Event → Tracer
  | .httpStart request =>
    match requestId with
    | none => t
    | some rid =>
      let s : Span := { name := "http.request"
                        attributes := [("http.method", .text request.method),
                          ("http.target", .text request.path), ("request.id", .text rid)] }
      { t with httpSpans := store t.httpSpans rid s }
  | .httpFinish _ status _ =>
    let rid := requestId.getD ""
    match find? t.httpSpans rid with
    | none => t
    | some s =>
      let s := { s with attributes := s.attributes.set "http.status_code" (.int status) }
      let s := if status ≥ 500 then { s with status := .error, statusText := "server error" } else s
      { t with httpSpans := remove t.httpSpans rid, ended := t.ended ++ [s] }
  | .graphqlStart _ operationName operationType =>
    match requestId with
    | none => t
    | some rid =>
      let parent := if (find? t.httpSpans rid).isSome then "http.request" else ""
      let s : Span := { name := "graphql.operation", parent
                        attributes := [("graphql.operation.name", .text operationName),
                          ("graphql.operation.type", .text operationType)] }
      { t with operationSpans := store t.operationSpans rid s }
  | .graphqlFinish _ _ _ errors _ =>
    let rid := requestId.getD ""
    match find? t.operationSpans rid with
    | none => t
    | some s =>
      let s := { s with attributes := s.attributes.set "graphql.error_count" (.int errors.length) }
      let s := match errors with
        | first :: _ => { s with status := .error, statusText := first }
        | [] => s
      { t with operationSpans := remove t.operationSpans rid, ended := t.ended ++ [s] }
  | .resolverFinish objectType field async error _ =>
    match error with
    | none => t
    | some message =>
      let rid := requestId.getD ""
      match find? t.operationSpans rid with
      | none => t
      | some s =>
        let e : SpanEvent := ⟨"exception", [("exception.message", .text message),
          ("graphql.field", .text (objectType ++ "." ++ field)), ("graphql.async", .bool async)]⟩
        { t with operationSpans := store t.operationSpans rid { s with events := s.events ++ [e] } }
  | _ => t

end Tracer

end GraphWeave.Telemetry
