import GraphWeave.Definition.Builder
import GraphWeave.Schema.Render

/-!
Running requests on a built schema.
-/

namespace GraphWeave

/-- A finished resolver call: the field, whether it was batched, and its error message. -/
structure ResolverCall where
  objectType : String
  field : String
  async : Bool
  error : Option String
deriving Repr, Inhabited

/-- The host state of a running request: the application state and the resolver calls made. -/
structure Session (σ : Type) where
  store : σ
  calls : Array ResolverCall := #[]

/-- What the log records for a resolver that never returns; the request it serves never
answers. -/
def neverReturns : String := "resolver never returns"

/-- Whether a resolver called in the session never returned. -/
def Session.hung {σ : Type} (session : Session σ) : Bool :=
  session.calls.any (·.error == some neverReturns)

/-- A request: the document text, the operation name (empty for the only one), the variables,
the root value, and the metadata resolvers see. -/
structure Request where
  query : String
  operationName : String := ""
  variableValues : List (String × Value) := []
  root : FieldValue := FieldValue.none
  metadata : Metadata := []

namespace Serialize

/-- The JSON of a leaf a custom scalar passes through: host values as themselves, list items as
empty objects, nulls and nested lists as such. -/
def passThrough : Leaf → Json
  | .host v => v.toJson
  | .list items => .arr (items.map itemJson)
where
  itemJson : Resolved → Json
    | .null => .null
    | .single _ => .obj []
    | .list items => .arr (items.attach.map fun ⟨x, _⟩ => itemJson x)
    | .itemError _ => .obj [("Err", .obj [])]

/-- A field error with a plain message. -/
def fail {α : Type} (message : String) : Except FieldError α := .error { message }

/-- `Int`: integers and whole doubles within 32 bits. -/
def int (v : Leaf) : Except FieldError Json :=
  let range (n : Int) : Except FieldError Json :=
    if -Int.pow 2 31 ≤ n ∧ n < Int.pow 2 31 then .ok (Json.int n)
    else fail ("Int cannot represent value " ++ toString n)
  match v with
  | .host (.int _ n) => range n
  | .host (.uint .w8 n) | .host (.uint .w16 n) | .host (.uint .w32 n) => range n
  | .host (.uint _ n) =>
    if n > Nat.pow 2 31 - 1 then fail ("Int cannot represent value " ++ toString n) else range n
  | .host (.double x) =>
    if x.isWhole then range x.toInt64
    else fail ("Int cannot represent non-integer value " ++ (Value.double x).display)
  | _ => fail ("Int cannot represent " ++ v.display ++ " (" ++ v.typeName ++ ")")

/-- `Float`: floats and signed integers, as doubles. -/
def float (v : Leaf) : Except FieldError Json :=
  match v with
  | .host (.double x) => .ok (Json.double x)
  | .host (.single x) => .ok (Json.double (x.convert : Binary64))
  | .host (.int .word n) | .host (.int .w32 n) | .host (.int .w64 n) =>
    .ok (Json.double (BinaryFloat.ofInt n : Binary64))
  | _ => fail ("Float cannot represent " ++ v.display ++ " (" ++ v.typeName ++ ")")

/-- The text of a value that has one: strings, identifiers, enum names and durations. -/
def text? : Leaf → Option String
  | .host (.str s) | .host (.id s) | .host (.enumLiteral s) => some s
  | .host (.duration d) => some d.render
  | _ => none

/-- `String`, and the text rule that enums and `ID` share, under a type name. -/
def string (v : Leaf) (typeName : String) : Except FieldError String :=
  match text? v with
  | some s => .ok s
  | none => fail (typeName ++ " cannot represent " ++ v.display ++ " (" ++ v.typeName ++ ")")

/-- `ID`: integers in decimal, or a text. -/
def id (v : Leaf) : Except FieldError Json :=
  match v with
  | .host (.int .word n) | .host (.int .w32 n) | .host (.int .w64 n) => .ok (.str (toString n))
  | _ => (string v "ID").map .str

end Serialize

namespace ExecutableSchema

variable {σ : Type}

/-- The field definition resolving a field of an object type. -/
def fieldDef? (s : ExecutableSchema σ) (objectType field : String) : Option (FieldDef σ) :=
  match s.resolvers.find? (·.1 == objectType) with
  | some (_, fields) => fields.find? (·.name == field)
  | none => none

/-- Serializes a leaf of a scalar or enum type. -/
def serialize (s : ExecutableSchema σ) (typeName : String) (result : Resolved) :
    Except FieldError Json :=
  let leaf : Option Leaf := match result with
    | .single fv => fv.host?.map fun v =>
      match v with
      | .ref target => .host target
      | v => .host v
    | .list items => some (.list items)
    | _ => none
  match leaf with
  | none => .ok .null
  | some (.host .null) | some (.host (.nilRef _)) => .ok .null
  | some v =>
    match typeName with
    | "Int" => Serialize.int v
    | "Float" => Serialize.float v
    | "String" => (Serialize.string v "String").map .str
    | "Boolean" =>
      match v with
      | .host (.bool b) => .ok (.bool b)
      | _ => Serialize.fail ("Boolean cannot represent " ++ v.display ++ " (" ++ v.typeName ++ ")")
    | "ID" => Serialize.id v
    | _ =>
      match s.raw.type? typeName with
      | none => Serialize.fail ("unknown leaf type " ++ typeName)
      | some t =>
        if t.kind == .enum then
          match Serialize.string v typeName with
          | .ok name =>
            if t.hasEnumValue name then .ok (.str name)
            else Serialize.fail ("enum " ++ typeName ++ " has no value " ++ Quoted.encode name)
          | .error e => .error e
        else
          match s.scalars.find? (·.name == typeName) with
          | some { serialize := some f, .. } => f v
          | _ => .ok (Serialize.passThrough v)

/-- The object type a value of an abstract type carries. -/
def resolveType (abstractType : String) (result : Resolved) : Except FieldError String :=
  match result with
  | .single fv =>
    if fv.typeName.isEmpty then
      .error { message := "value for abstract type " ++ abstractType ++ " carries no type name" }
    else .ok fv.typeName
  | _ => .error { message := "value for abstract type " ++ abstractType ++ " carries no type name" }

/-- Calls a field's resolver, logging the call. -/
def call (s : ExecutableSchema σ) (metadata : Metadata) (task : ResolveTask) :
    StateM (Session σ) (Except FieldError FieldValue) := fun session =>
  match s.fieldDef? task.objectType task.field with
  | some { resolver := some r, async, .. } =>
    let parent := match task.source with
      | .single fv => fv
      | _ => FieldValue.none
    let rc : ResolverContext :=
      ⟨parent, task.arguments, task.path, task.objectType, task.field, task.fields, task.document,
        metadata⟩
    let (outcome, store) := (r rc).run session.store
    let result : Except FieldError FieldValue := match outcome with
      | .ok fv => .ok fv
      | .error (.error e) => .error e
      | .error (.panic _) =>
        .error { message := "internal error resolving " ++ task.objectType ++ "." ++ task.field }
      | .error .hang => .error { message := neverReturns }
    let logged : ResolverCall := ⟨task.objectType, task.field, async, match result with
      | .ok _ => none
      | .error e => some e.message⟩
    (result, { store, calls := session.calls.push logged })
  | _ =>
    (.error { message := "no resolver for " ++ task.objectType ++ "." ++ task.field }, session)

/-- Resolves a field through its resolver; an error item the resolver answers is its error. -/
def resolveTask (s : ExecutableSchema σ) (metadata : Metadata) (task : ResolveTask) :
    StateM (Session σ) (Except FieldError Resolved) := do
  match ← s.call metadata task with
  | .error e => pure (.error e)
  | .ok (.itemError e _) => pure (.error e)
  | .ok fv => pure (.ok fv.toResolved)

/-- The runtime the executor runs this schema with: a batch resolves its fields one after
another. -/
def runtime (s : ExecutableSchema σ) (metadata : Metadata) : Runtime (Session σ) where
  resolve := s.resolveTask metadata
  resolveBatch tasks := tasks.mapM (s.resolveTask metadata)
  resolveType := resolveType
  serialize := s.serialize

/-- The result of a document that does not parse: one error at its location. -/
def parseFailure (e : SyntaxError) : ExecutionResult :=
  .failure { message := e.message, locations := [e.location] }

/-- Runs a parsed document with the other parts of a request. -/
def executeDocument (s : ExecutableSchema σ) (doc : Document) (req : Request) :
    StateM (Session σ) ExecutionResult :=
  let root : Resolved := if req.root.isNull then .null else .single req.root
  s.raw.execute (s.runtime req.metadata) doc req.operationName req.variableValues root

/-- Runs a request, its text read by a parser. A document that does not parse gives one error
at its location. -/
def execute (s : ExecutableSchema σ) (parse : DocumentParser) (req : Request) :
    StateM (Session σ) ExecutionResult :=
  match parse req.query with
  | .error e => pure (parseFailure e)
  | .ok doc => s.executeDocument doc req

/-- The schema definition language text of the schema. -/
def sdl (s : ExecutableSchema σ) : String := s.raw.render

end ExecutableSchema

end GraphWeave
