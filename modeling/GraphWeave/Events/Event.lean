import GraphWeave.Time.Duration

/-!
Events that the server, the runtime and the application publish, and that telemetry consumes: an
HTTP request starting and finishing, a GraphQL operation starting and finishing, a resolver call
finishing, and the schema being assembled.
-/

namespace GraphWeave

/-- What telemetry sees of an HTTP request: its method and path. -/
structure HttpRequestInfo where
  method : String
  path : String
deriving DecidableEq, Repr, Inhabited

/-- An event. -/
inductive Event where
  | text (s : String)
  | httpStart (request : HttpRequestInfo)
  | httpFinish (request : HttpRequestInfo) (status : Nat) (duration : Duration)
  | graphqlStart (query operationName operationType : String)
  | graphqlFinish (query operationName operationType : String) (errors : List String)
      (duration : Duration)
  | schemaAssembled (modules : Nat) (error : Option String) (duration : Duration)
  | resolverFinish (objectType field : String) (async : Bool) (error : Option String)
      (duration : Duration)
deriving Repr, Inhabited

/-- The kinds of events; handlers subscribe to one kind. -/
inductive EventKind where
  | text
  | httpStart
  | httpFinish
  | graphqlStart
  | graphqlFinish
  | schemaAssembled
  | resolverFinish
deriving DecidableEq, Repr, Inhabited

/-- The kind of an event. -/
def Event.kind : Event → EventKind
  | .text _ => .text
  | .httpStart .. => .httpStart
  | .httpFinish .. => .httpFinish
  | .graphqlStart .. => .graphqlStart
  | .graphqlFinish .. => .graphqlFinish
  | .schemaAssembled .. => .schemaAssembled
  | .resolverFinish .. => .resolverFinish

/-- An event as published: the event and the request id of its context. -/
structure Published where
  event : Event
  requestId : Option String := none
deriving Repr, Inhabited

end GraphWeave
