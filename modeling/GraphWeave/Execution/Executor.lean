import GraphWeave.Execution.Selection
import GraphWeave.Execution.Response
import GraphWeave.FieldValue

/-!
Running an operation against a schema, breadth first.
-/

namespace GraphWeave

/-- One field to resolve: the object type and field, the parent value, the coerced arguments,
the response path, and the document nodes that select it. -/
structure ResolveTask where
  objectType : String
  field : String
  source : Resolved
  arguments : List (String × Value)
  path : Path
  fields : List Field
  document : Document
deriving Inhabited

/-- What the executor asks of its host, whose state is `σ`: resolving a field at once,
resolving a batch of fields with one result for each, naming the object type of an abstract
value, and serializing a leaf value to JSON. -/
structure Runtime (σ : Type) where
  resolve : ResolveTask → StateM σ (Except FieldError Resolved)
  resolveBatch : List ResolveTask → StateM σ (List (Except FieldError Resolved))
  resolveType : String → Resolved → Except FieldError String
  serialize : String → Resolved → Except FieldError Json

/-- A queued asynchronous field, with its declared type and the path of its nearest nullable
ancestor (the field itself when it is nullable; empty for the data root). -/
structure AsyncTask where
  task : ResolveTask
  type : TypeRef
  boundary : Path
deriving Inhabited

/-- The state of a running operation. -/
structure ExecState (σ : Type) where
  host : σ
  errors : Array ResponseError := #[]
  nullified : List Path := []
  queue : Array AsyncTask := #[]
  dataNull : Bool := false

/-- The fixed parts of a running operation. -/
structure ExecContext (σ : Type) where
  runtime : Runtime σ
  schema : Schema
  document : Document
  operation : Operation
  variableValues : List (String × Value)

/-- Steps of a running operation. A step that runs out of its budget has no outcome. -/
abbrev Exec (σ : Type) := StateT (ExecState σ) Option

/-- What running a field gives: a value now, or a place held for its batch. -/
inductive FieldOutcome where
  | done (v : ResponseValue)
  | pending

namespace Exec

variable {σ : Type}

/-- The location of the first node of a field group. -/
def locationsOf (fields : List Field) : List Location :=
  match fields with
  | f :: _ => [f.location]
  | [] => []

/-- Records an error of the executor's own. -/
def addError (message : String) (path : Path) (fields : List Field) : Exec σ Unit :=
  modify fun st => { st with errors := st.errors.push ⟨message, locationsOf fields, path, []⟩ }

/-- Records an error raised for a field, with its extensions. -/
def addFieldError (e : FieldError) (path : Path) (fields : List Field) : Exec σ Unit :=
  modify fun st =>
    { st with errors := st.errors.push ⟨e.message, locationsOf fields, path, e.extensions⟩ }

/-- Marks the subtree at a path as nulled; the root is never marked. -/
def markNullified (p : Path) : Exec σ Unit :=
  if p.isEmpty then pure () else modify fun st => { st with nullified := st.nullified ++ [p] }

/-- Whether a path lies in a nulled subtree. -/
def isNullified (st : ExecState σ) (p : Path) : Bool :=
  st.nullified.any fun q => q.isPrefixOf p

/-- Whether an error is recorded at exactly this path. -/
def hasErrorAt (p : Path) : Exec σ Bool := do
  return (← get).errors.any fun e => e.path == p

/-- Resolves a field through the runtime. -/
def resolve (c : ExecContext σ) (task : ResolveTask) : Exec σ (Except FieldError Resolved) :=
  fun st =>
    let (r, host) := (c.runtime.resolve task).run st.host
    some (r, { st with host })

/-- Resolves a batch of fields through the runtime, in one call. -/
def resolveBatch (c : ExecContext σ) (tasks : List ResolveTask) :
    Exec σ (List (Except FieldError Resolved)) :=
  fun st =>
    let (rs, host) := (c.runtime.resolveBatch tasks).run st.host
    some (rs, { st with host })

/-- One result for each of `n` tasks, in order: when the runtime answers another number of
results, a task without its result fails, and results past the last task are dropped. -/
def fitResults (n : Nat) (results : List (Except FieldError Resolved)) :
    List (Except FieldError Resolved) :=
  (List.range n).map fun i => results[i]?.getD
    (.error { message := "runtime returned " ++ toString results.length ++ " results for " ++
      toString n ++ " tasks" })

/-- Resolves the fields of a batch: no call for an empty batch, else one call of the runtime
with their tasks, and one result for each field. -/
def resolveAll (c : ExecContext σ) (batch : List AsyncTask) :
    Exec σ (List (Except FieldError Resolved)) :=
  if batch.isEmpty then pure []
  else do
    let results ← resolveBatch c (batch.map (·.task))
    pure (fitResults batch.length results)

/-- Queues an asynchronous field. -/
def enqueue (t : AsyncTask) : Exec σ Unit :=
  modify fun st => { st with queue := st.queue.push t }

/-- The collection context of the operation. -/
def collectContext (c : ExecContext σ) : CollectContext := ⟨c.schema, c.document, c.variableValues⟩

/-- Whether a field at this path runs in document order: a root field of a mutation. -/
def isSerial (c : ExecContext σ) (path : Path) : Bool :=
  c.operation.kind == .mutation && path.length == 1

/-- The arguments written on the first node of a field group. -/
def writtenArguments (fields : List Field) : List (String × Literal) :=
  match fields with
  | f :: _ => f.arguments
  | [] => []

/-- A list item that failed becomes null, with its error recorded at its path. -/
def settle (path : Path) (fields : List Field) : Resolved → Exec σ Resolved
  | .itemError e => do
    addFieldError e path fields
    pure .null
  | r => pure r

/-- Records that a non-null position came out null, unless an error is already recorded at it. -/
def reportNull (path : Path) (fields : List Field) : Exec σ Unit := do
  if !(← hasErrorAt path) then
    addError ("Cannot return null for non-nullable field " ++ path.dotted) path fields

/-- How a value of a named type completes, short of running a selection set on it: with the
executor's own error, with an error the runtime raised, as a finished value (a serialized leaf,
or null), or as an object of the type the runtime named. -/
inductive NamedCompletion where
  | fail (message : String)
  | raise (e : FieldError)
  | value (v : ResponseValue)
  | object (o : Schema.NamedType)

/-- Completes a non-null value of a named type as far as no selection set is involved: leaves
are serialized, and values of interfaces and unions take the object type the runtime names,
which must be a possible type. -/
def completeNamed (c : ExecContext σ) (name : String) (result : Resolved) : NamedCompletion :=
  match c.schema.type? name with
  | none => .fail ("Unknown type: " ++ name)
  | some t =>
    match t.kind with
    | .scalar | .enum =>
      match c.runtime.serialize name result with
      | .error e => .raise e
      | .ok .null => .value .null
      | .ok j => .value (.leaf j)
    | .object => .object t
    | .interface | .union =>
      match c.runtime.resolveType t.name result with
      | .error e => .raise e
      | .ok typeName =>
        match c.schema.type? typeName with
        | some o =>
          if o.kind != .object then
            .fail ("Abstract type " ++ t.name ++ " must resolve to an Object type at runtime. Got: " ++
              typeName)
          else if !c.schema.isPossibleType t.name typeName then
            .fail ("Runtime Object type " ++ typeName ++ " is not a possible type for " ++ t.name)
          else .object o
        | none =>
          .fail ("Abstract type " ++ t.name ++ " must resolve to an Object type at runtime. Got: " ++
            typeName)
    | .inputObject => .fail "Cannot complete value of unexpected type: INPUT_OBJECT"

mutual

/-- Runs a selection set on an object value; `none` when a non-null field came out null. -/
def executeSelections (c : ExecContext σ) (fuel : Nat) (object : Schema.NamedType)
    (selections : List Selection) (source : Resolved) (path boundary : Path) :
    Exec σ (Option (List (String × ResponseValue))) :=
  match fuel with
  | 0 => failure
  | fuel + 1 =>
    executeGroups c fuel object source path boundary
      ((collectContext c).collect object.name selections) []
termination_by (fuel, 0)

/-- Runs field groups in order, stopping at the first non-null field that came out null. -/
def executeGroups (c : ExecContext σ) (fuel : Nat) (object : Schema.NamedType)
    (source : Resolved) (path boundary : Path) (groups : List FieldGroup)
    (acc : List (String × ResponseValue)) : Exec σ (Option (List (String × ResponseValue))) :=
  match groups with
  | [] => pure (some acc)
  | g :: rest =>
    let fieldPath := path ++ [.key g.key]
    match g.fields with
    | [] => executeGroups c fuel object source path boundary rest acc
    | first :: _ =>
      if first.name == "__typename" then
        executeGroups c fuel object source path boundary rest
          (acc ++ [(g.key, .leaf (.str object.name))])
      else
        match object.field? first.name with
        | none => do
          addError ("Cannot query field '" ++ first.name ++ "' on type '" ++ object.name ++ "'")
            fieldPath g.fields
          executeGroups c fuel object source path boundary rest acc
        | some fd => do
          let fieldBoundary := if fd.type.isNonNull then boundary else fieldPath
          let outcome ← executeField c fuel object source fd g.fields fieldPath fieldBoundary
          match outcome with
          | .pending =>
            executeGroups c fuel object source path boundary rest (acc ++ [(g.key, .pending)])
          | .done v =>
            if v.isNull then
              if fd.type.isNonNull then do
                markNullified path
                pure none
              else executeGroups c fuel object source path boundary rest (acc ++ [(g.key, .null)])
            else executeGroups c fuel object source path boundary rest (acc ++ [(g.key, v)])
termination_by (fuel, groups.length)

/-- Coerces a field's arguments, then resolves and completes it now or queues it. -/
def executeField (c : ExecContext σ) (fuel : Nat) (object : Schema.NamedType) (source : Resolved)
    (fd : Schema.Field) (fields : List Field) (path boundary : Path) : Exec σ FieldOutcome :=
  match fuel with
  | 0 => failure
  | fuel + 1 => do
    match c.schema.coerceArguments c.variableValues fd (writtenArguments fields) with
    | .error e =>
      addError e.message path fields
      pure (.done .null)
    | .ok args =>
      let task : ResolveTask :=
        ⟨object.name, fd.name, source, args, path, fields, c.document⟩
      if fd.async && !isSerial c path then
        enqueue ⟨task, fd.type, boundary⟩
        pure .pending
      else
        match ← resolve c task with
        | .error e =>
          addFieldError e path fields
          pure (.done .null)
        | .ok v => return .done (← completeValue c fuel fd.type fields v path boundary)
termination_by (fuel, 0)

/-- Completes a resolved value at a type; null stands for a null result. -/
def completeValue (c : ExecContext σ) (fuel : Nat) (type : TypeRef) (fields : List Field)
    (result : Resolved) (path boundary : Path) : Exec σ ResponseValue :=
  match fuel with
  | 0 => failure
  | fuel + 1 => do
    let result ← settle path fields result
    match type with
    | .nonNull inner =>
      if result.isNull then
        reportNull path fields
        pure .null
      else completeValue c fuel inner fields result path boundary
    | .list inner =>
      if result.isNull then pure .null
      else completeList c fuel inner fields result path boundary
    | .named name =>
      if result.isNull then pure .null
      else
        match completeNamed c name result with
        | .fail message => do
          addError message path fields
          pure .null
        | .raise e => do
          addFieldError e path fields
          pure .null
        | .value v => pure v
        | .object o => completeObject c fuel o fields result path boundary
termination_by (fuel, 0)

/-- Completes a list value item by item. -/
def completeList (c : ExecContext σ) (fuel : Nat) (inner : TypeRef) (fields : List Field)
    (result : Resolved) (path boundary : Path) : Exec σ ResponseValue :=
  match fuel with
  | 0 => failure
  | fuel + 1 =>
    match result with
    | .list items => do
      match ← completeItems c fuel inner fields path boundary 0 items [] with
      | some vs => pure (.list vs)
      | none => pure .null
    | _ => do
      addError ("Expected list value, got " ++ result.typeName) path fields
      pure .null
termination_by (fuel, 0)

/-- Completes list items from an index on; `none` when a non-null item came out null. -/
def completeItems (c : ExecContext σ) (fuel : Nat) (inner : TypeRef) (fields : List Field)
    (path boundary : Path) (index : Nat) (items : List Resolved) (acc : List ResponseValue) :
    Exec σ (Option (List ResponseValue)) :=
  match items with
  | [] => pure (some acc)
  | item :: rest => do
    let p := path ++ [.index index]
    let itemBoundary := if inner.isNonNull then boundary else p
    let v ← completeValue c fuel inner fields item p itemBoundary
    if v.isNull then
      if inner.isNonNull then do
        markNullified path
        pure none
      else completeItems c fuel inner fields path boundary (index + 1) rest (acc ++ [.null])
    else completeItems c fuel inner fields path boundary (index + 1) rest (acc ++ [v])
termination_by (fuel, items.length + 1)

/-- Completes an object value by running the merged sub-selections on it. -/
def completeObject (c : ExecContext σ) (fuel : Nat) (object : Schema.NamedType)
    (fields : List Field) (result : Resolved) (path boundary : Path) : Exec σ ResponseValue :=
  match fuel with
  | 0 => failure
  | fuel + 1 => do
    match ← executeSelections c fuel object (mergeSelections fields) result path boundary with
    | some fs => pure (.object fs)
    | none => pure .null
termination_by (fuel, 0)

end

/-- The value a batch result completes to; a field error is recorded and becomes null. -/
def completeResult (c : ExecContext σ) (fuel : Nat) (t : AsyncTask) :
    Except FieldError Resolved → Exec σ ResponseValue
  | .error e => do
    addFieldError e t.task.path t.task.fields
    pure .null
  | .ok v => completeValue c fuel t.type t.task.fields v t.task.path t.boundary

/-- Writes a completed batch result into the tree. A null at a non-null field goes to the
field's boundary, whose subtree is marked; at the data root it makes the data null. -/
def placeAsync (t : AsyncTask) (completed tree : ResponseValue) : Exec σ ResponseValue :=
  if completed.isNull && t.type.isNonNull then
    if t.boundary.isEmpty then do
      modify fun st => { st with dataNull := true }
      pure tree
    else do
      markNullified t.boundary
      pure (tree.setAt t.boundary .null)
  else pure (tree.setAt t.task.path completed)

/-- Completes one result of a batch and writes it into the tree, unless the field lies in a
marked subtree. -/
def completeAsync (c : ExecContext σ) (fuel : Nat) (t : AsyncTask)
    (result : Except FieldError Resolved) (tree : ResponseValue) : Exec σ ResponseValue := do
  if isNullified (← get) t.task.path then return tree
  let completed ← completeResult c fuel t result
  placeAsync t completed tree

/-- Completes a batch's results in order, stopping once the data root is null. -/
def completeBatch (c : ExecContext σ) (fuel : Nat) (tree : ResponseValue) :
    List (AsyncTask × Except FieldError Resolved) → Exec σ ResponseValue
  | [] => pure tree
  | (t, r) :: rest => do
    let tree ← completeAsync c fuel t r tree
    if (← get).dataNull then pure tree else completeBatch c fuel tree rest

/-- Runs the queued batches until none is left or the data root is null; `rounds` bounds the
number of batches, and a run that needs more has no outcome. -/
def runBatches (c : ExecContext σ) (fuel : Nat) (rounds : Nat) (tree : ResponseValue) :
    Exec σ ResponseValue := do
  let st ← get
  if st.queue.isEmpty || st.dataNull then return tree
  match rounds with
  | 0 => failure
  | rounds + 1 =>
    let live := st.queue.toList.filter fun t => !isNullified st t.task.path
    set { st with queue := #[] }
    let results ← resolveAll c live
    let tree ← completeBatch c fuel tree (live.zip results)
    runBatches c fuel rounds tree

end Exec

namespace Schema

/-- How deeply completions may nest within one batch, and how many batches may run. -/
def executionBudget : Nat := 100000

/-- Runs an operation of a document with coerced variables and a root value, within a budget
for the nesting of completions and for the number of batches; `none` when the run needs more.
-/
def runOperationWithin {σ : Type} (budget : Nat) (s : Schema) (runtime : Runtime σ)
    (doc : Document) (op : Operation) (rootType : NamedType) (vars : List (String × Value))
    (root : Resolved) : StateM σ (Option ExecutionResult) := fun host =>
  let c : ExecContext σ := ⟨runtime, s, doc, op, vars⟩
  let run : Exec σ (Option ResponseValue) := do
    match ← Exec.executeSelections c budget rootType op.selections root [] [] with
    | none =>
      modify fun st => { st with dataNull := true }
      pure none
    | some fs =>
      let tree ← Exec.runBatches c budget budget (.object fs)
      if (← get).dataNull then pure none else pure (some tree)
  match run.run { host } with
  | some (data, st) => (some ⟨data, st.errors.toList⟩, st.host)
  | none => (none, host)

/-- Runs an operation within the execution budget. A run that does not finish within it gives
no data and one error. -/
def runOperation {σ : Type} (s : Schema) (runtime : Runtime σ) (doc : Document)
    (op : Operation) (rootType : NamedType) (vars : List (String × Value)) (root : Resolved) :
    StateM σ ExecutionResult := do
  match ← s.runOperationWithin executionBudget runtime doc op rootType vars root with
  | some result => pure result
  | none => pure (.failure { message := "execution did not finish within its budget" })

/-- Runs a request: picks the operation, coerces the variables and runs the operation on the
root type of its kind. Failures of the request as a whole give no data and one error. -/
def execute {σ : Type} (s : Schema) (runtime : Runtime σ) (doc : Document)
    (operationName : String) (given : List (String × Value)) (root : Resolved) :
    StateM σ ExecutionResult :=
  match doc.operation? operationName with
  | none =>
    pure (.failure { message := if operationName.isEmpty then "operation not found"
      else "operation " ++ Quoted.encode operationName ++ " not found" })
  | some op =>
    match s.coerceVariables given op.variableDefinitions with
    | .error e => pure (.failure { message := e.message })
    | .ok vars =>
      let rootType? : Except String (Option NamedType) :=
        match op.kind with
        | .query => .ok s.queryType?
        | .mutation => .ok s.mutationType?
        | .subscription => .error "subscriptions are not supported"
      match rootType? with
      | .error message => pure (.failure { message })
      | .ok none =>
        pure (.failure { message := "root type not found for " ++ op.kind.keyword ++ " operation" })
      | .ok (some rootType) => s.runOperation runtime doc op rootType vars root

end Schema

end GraphWeave
