import GraphWeave.Server.Http
import GraphWeave.Json.Parse
import GraphWeave.Json.Lenient
import GraphWeave.Value.Json
import GraphWeave.Text.Case

/-!
GraphQL requests read from HTTP requests.
-/

namespace GraphWeave.Server

/-- A GraphQL request. -/
structure GraphQLRequest where
  query : String := ""
  operationName : String := ""
  variableValues : List (String × Value) := []
deriving Repr, Inhabited

/-- What an HTTP request holds: one GraphQL request, or a batch of them. -/
inductive Payload where
  | single (r : GraphQLRequest)
  | batch (rs : List GraphQLRequest)
deriving Repr, Inhabited

/-- Why an HTTP request holds no GraphQL request: a message, and whether the body was too
long. -/
structure Rejection where
  message : String
  tooLarge : Bool := false
deriving Repr, Inhabited

/-- The variables of a JSON object; none for null. -/
def variablesOfJson : Json → Option (List (String × Value))
  | .null => some []
  | .obj members =>
    match Value.ofVariableJson (.obj members) with
    | .map entries => some entries
    | _ => some []
  | _ => none

/-- Reads a member of a request body into the request. -/
def readMember (r : GraphQLRequest) (member : String × Json) : Option GraphQLRequest :=
  let (key, v) := member
  match lowerCase key, v with
  | "query", .str s => some { r with query := s }
  | "query", .null => some { r with query := "" }
  | "operationname", .str s => some { r with operationName := s }
  | "operationname", .null => some { r with operationName := "" }
  | "variables", .null => some { r with variableValues := [] }
  | "variables", v =>
    (variablesOfJson v).map fun vars =>
      { r with variableValues :=
          vars ++ r.variableValues.filter fun (k, _) => !vars.any (·.1 == k) }
  | "extensions", .obj _ => some r
  | "extensions", .null => some r
  | "query", _ | "operationname", _ | "extensions", _ => none
  | _, _ => some r

/-- Reads a request body document: an object, or null for an empty request. -/
def requestOfJson : Json → Option GraphQLRequest
  | .null => some {}
  | .obj members => members.foldlM readMember {}
  | _ => none

/-- The message of a request without a document. -/
def missingQuery : Rejection := ⟨"missing 'query'", false⟩

/-- Reads a GET request's parameters. -/
def fromQuery (r : Http.Request) : Except Rejection Payload :=
  let query := r.param "query"
  if query.isEmpty then .error missingQuery
  else
    let vars := r.param "variables"
    let variableValues := if vars.isEmpty then some [] else (Json.Lenient.variableValues vars).toOption
    match variableValues with
    | none => .error ⟨"invalid 'variables' JSON", false⟩
    | some variableValues => .ok (.single { query, operationName := r.param "operationName", variableValues })

/-- Whether a content type is acceptable for a body: none, or JSON. -/
def acceptsContentType (ct : String) : Bool :=
  ct.isEmpty || ct == "application/json" || ct.startsWith "application/json;"

/-- The limit of the body reader under a positive size limit: one byte past it, as a signed 64-bit
sum, which wraps to the least 64-bit integer at the largest limit. -/
def readLimit (maxBody : Int) : Int := (maxBody + 1).bmod (Nat.pow 2 64)

/-- What is read of a body. With no limit it is read whole; under a positive limit the reader
stops one byte past the limit, and a reader whose own limit is not positive yields nothing. A
body cut by the reader is longer than the limit and is refused for its length alone, so it is
kept whole here. -/
def readBody (body : String) (maxBody : Int) : String :=
  if maxBody > 0 && readLimit maxBody ≤ 0 then "" else body

/-- Reads the GraphQL requests of a body that was read: a batch when it starts with `[`, else
one request. -/
def bodyPayload (body : String) : Except Rejection Payload :=
  let invalid : Except Rejection Payload := .error ⟨"invalid JSON", false⟩
  if body.startsWith "[" then
    match Json.parse body with
    | .ok (.arr items) =>
      match items.mapM requestOfJson with
      | none => invalid
      | some [] => .error ⟨"empty batch", false⟩
      | some rs => if rs.any (·.query.isEmpty) then .error missingQuery else .ok (.batch rs)
    | _ => invalid
  else
    match (Json.parse body).toOption.bind requestOfJson with
    | none => invalid
    | some req => if req.query.isEmpty then .error missingQuery else .ok (.single req)

/-- Reads a POST request's body, with a size limit when positive. -/
def fromBody (r : Http.Request) (maxBody : Int) : Except Rejection Payload :=
  if !acceptsContentType (r.header "Content-Type") then .error ⟨"unsupported Content-Type", false⟩
  else
    let body := readBody (r.body.getD "") maxBody
    if maxBody > 0 && (body.utf8ByteSize : Int) > maxBody then .error ⟨"body too large", true⟩
    else bodyPayload body

/-- Reads the GraphQL request of an HTTP request. -/
def payloadOf (r : Http.Request) (maxBody : Int) : Except Rejection Payload :=
  if r.method == "GET" then fromQuery r else fromBody r maxBody

end GraphWeave.Server
