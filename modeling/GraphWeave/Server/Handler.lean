import GraphWeave.Server.Request
import GraphWeave.Definition.Runtime
import GraphWeave.Telemetry.Hub
import GraphWeave.Telemetry.Exposition
import GraphWeave.Telemetry.RequestId
import GraphWeave.Json.Print

/-!
Serving a schema over HTTP.
-/

namespace GraphWeave.Server

/-- How the server runs. -/
structure Options where
  /-- The longest a request may take; zero for no limit. Resolvers here never wait, so it
  never cuts a request short. -/
  timeout : Duration := ⟨10000000000⟩
  pretty : Bool := false
  /-- The longest body accepted, in bytes; zero for no limit. -/
  maxBodyBytes : Int := 0
  corsOrigins : List String := []
  metadataHeaders : List String := []
  root : FieldValue := FieldValue.none

/-- What serving keeps from request to request: the host state, the telemetry and the supply of
request ids. -/
structure State (σ : Type) where
  session : Session σ
  hub : Telemetry.Hub := {}
  ids : RequestId.Supply := {}

/-- The name of the request id header and metadata key. -/
def requestIdHeader : String := "x-request-id"

variable {σ : Type}

/-- Publishes an event under a request id. -/
def publish (rid : String) (e : Event) : StateM (State σ) Unit :=
  modify fun st => { st with hub := st.hub.emit ⟨e, some rid⟩ }

/-- A result that carries only a request error. -/
def requestError (message : String) : ExecutionResult := ⟨none, [{ message }]⟩

/-- The operation a request names, as the server finds it before running anything: the
document's own lookup by name, or its only operation when no name is given. -/
def requestedOperation (lookup : OperationLookup) (doc : Document) (name : String) :
    Option Operation :=
  match lookup doc.operations name, name, doc.operations with
  | some op, _, _ => some op
  | none, "", [op] => some op
  | none, _, _ => none

section Lookup

variable (parse : DocumentParser) (lookup : OperationLookup)

/-- Runs a GraphQL request. A document that does not parse, or a mutation where none is
allowed, is answered without running anything. -/
def executeOne (s : ExecutableSchema σ) (opts : Options) (md : Metadata) (rid : String)
    (req : GraphQLRequest) (allowMutation : Bool) : StateM (State σ) ExecutionResult := do
  match parse req.query with
  | .error e => pure (ExecutableSchema.parseFailure e)
  | .ok doc =>
    let opType := match requestedOperation lookup doc req.operationName with
      | some op => op.kind.keyword
      | none => ""
    if opType == "mutation" && !allowMutation then
      return requestError "mutations are only allowed over POST"
    publish rid (.graphqlStart req.query req.operationName opType)
    let st ← get
    let before := st.session.calls.size
    let request : Request := { query := req.query, operationName := req.operationName
                               variableValues := req.variableValues, root := opts.root, metadata := md }
    let (result, session) := (s.executeDocument doc request).run st.session
    set { st with session }
    for call in session.calls.toList.drop before do
      publish rid (.resolverFinish call.objectType call.field call.async call.error ⟨0⟩)
    publish rid (.graphqlFinish req.query req.operationName opType
      (result.errors.map (·.message)) ⟨0⟩)
    pure result

/-- The JSON text of a response body, indented when pretty. -/
def bodyText (pretty : Bool) (j : Json) : String :=
  (if pretty then Json.renderIndented "" j else Json.render j) ++ "\n"

/-- A JSON response. -/
def jsonResponse (opts : Options) (base : Http.Response) (status : Nat) (j : Json) :
    Http.Response :=
  { (base.setHeader "Content-Type" "application/json; charset=utf-8") with
    status, body := bodyText opts.pretty j }

/-- Adds the cross-origin headers for an allowed origin. -/
def withCors (opts : Options) (r : Http.Request) (resp : Http.Response) : Http.Response :=
  let origin := r.header "Origin"
  let wildcard := opts.corsOrigins.contains "*"
  if origin.isEmpty || (!wildcard && !opts.corsOrigins.contains origin) then resp
  else
    let resp := if wildcard then resp.setHeader "Access-Control-Allow-Origin" "*"
      else (resp.setHeader "Access-Control-Allow-Origin" origin).addHeader "Vary" "Origin"
    let resp := resp.setHeader "Access-Control-Expose-Headers" requestIdHeader
    if r.method == "OPTIONS" then
      let requested := r.header "Access-Control-Request-Headers"
      let resp := if requested.isEmpty then resp
        else resp.setHeader "Access-Control-Allow-Headers" requested
      resp.setHeader "Access-Control-Allow-Methods" "GET,POST,OPTIONS"
    else resp

/-- The metadata forwarded to resolvers: the allowed headers by lower-case name, and the
request id. -/
def forwarded (opts : Options) (r : Http.Request) (rid : String) : Metadata :=
  let set (md : Metadata) (key : String) (vs : List String) : Metadata :=
    md.filter (·.1 != key) ++ [(key, vs)]
  let md := opts.metadataHeaders.foldl (fun md h =>
    match r.headerValues h with
    | [] => md
    | vs => set md h.toLower vs) []
  set md requestIdHeader [rid]

/-- The response to a request at `/graphql`, with the status it was given. -/
def respond (s : ExecutableSchema σ) (opts : Options) (r : Http.Request) (rid : String)
    (base : Http.Response) : StateM (State σ) Http.Response := do
  if r.method == "OPTIONS" then return { base with status := 204 }
  if r.method != "POST" && r.method != "GET" then
    return jsonResponse opts base 405 (requestError "method not allowed").toJson
  let md := forwarded opts r rid
  match payloadOf r opts.maxBodyBytes with
  | .error e =>
    pure (jsonResponse opts base (if e.tooLarge then 413 else 400) (requestError e.message).toJson)
  | .ok (.batch reqs) =>
    let mut results : List Json := []
    for req in reqs do
      let result ← executeOne parse lookup s opts md rid req true
      results := results ++ [result.toJson]
    pure (jsonResponse opts base 200 (.arr results))
  | .ok (.single req) =>
    let result ← executeOne parse lookup s opts md rid req (r.method == "POST")
    pure (jsonResponse opts base 200 result.toJson)

/-- Serves a request at `/graphql`. -/
def serveGraphQL (s : ExecutableSchema σ) (opts : Options) (r : Http.Request) :
    StateM (State σ) Http.Response := do
  let st ← get
  let supplied := r.header requestIdHeader
  let (rid, ids) := if supplied.isEmpty then st.ids.take else st.ids.accept supplied
  set { st with ids }
  let info : HttpRequestInfo := ⟨r.method, r.path⟩
  publish rid (.httpStart info)
  let start : Http.Response := { status := 200 }
  let base := withCors opts r (start.setHeader requestIdHeader rid)
  let resp ← respond parse lookup s opts r rid base
  publish rid (.httpFinish info resp.status ⟨0⟩)
  pure resp

/-- Serves a request at any path. -/
def serveWith (s : ExecutableSchema σ) (opts : Options) (r : Http.Request) :
    StateM (State σ) Http.Response := do
  match r.path with
  | "/graphql" => serveGraphQL parse lookup s opts r
  | "/health" => pure { status := 200, body := "ok" }
  | "/metrics" =>
    let st ← get
    pure { status := 200, headers := [("Content-Type", Telemetry.expositionContentType)]
           body := st.hub.metrics.exposition }
  | _ => pure Http.notFound

end Lookup

/-- Serves a request at any path, its documents read by a parser, looking operations up as the
parser does. -/
def serve (parse : DocumentParser) (s : ExecutableSchema σ) (opts : Options) (r : Http.Request) :
    StateM (State σ) Http.Response :=
  serveWith parse OperationLookup.standard s opts r

end GraphWeave.Server
