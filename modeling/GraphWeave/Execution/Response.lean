import GraphWeave.Execution.Path
import GraphWeave.Document.Basic
import GraphWeave.Value.Json

/-!
Responses: the data tree an operation builds and the errors it records.
-/

namespace GraphWeave

/-- The data tree of a response. -/
inductive ResponseValue where
  | null
  | leaf (j : Json)
  | list (items : List ResponseValue)
  | object (fields : List (String × ResponseValue))
  /-- A field whose batch has not completed yet. -/
  | pending
deriving Repr, Inhabited

namespace ResponseValue

/-- Whether the value is null. -/
def isNull : ResponseValue → Bool
  | .null => true
  | _ => false

/-- Writes a value at a path below the tree. The last step may add a key to an object; every
step before it must name an existing key or an index in range. -/
def setAt (t : ResponseValue) (p : Path) (v : ResponseValue) : ResponseValue :=
  match p, t with
  | [], _ => t
  | [.key k], .object fs =>
    if fs.any (·.1 == k) then .object (fs.map fun e => if e.1 == k then (k, v) else e)
    else .object (fs ++ [(k, v)])
  | [.index i], .list xs => if i < xs.length then .list (xs.set i v) else t
  | .key k :: rest, .object fs =>
    .object (fs.map fun e => if e.1 == k then (k, setAt e.2 rest v) else e)
  | .index i :: rest, .list xs =>
    .list (xs.mapIdx fun j x => if j == i then setAt x rest v else x)
  | _, _ => t

mutual

/-- The JSON of the tree; a placeholder that was never filled is an empty object. -/
def toJson : ResponseValue → Json
  | .null => .null
  | .leaf j => j
  | .list items => .arr (itemsToJson items)
  | .object fields => .obj (fieldsToJson fields)
  | .pending => .obj []

/-- JSON of list items. -/
def itemsToJson : List ResponseValue → List Json
  | [] => []
  | x :: rest => x.toJson :: itemsToJson rest

/-- JSON of object fields. -/
def fieldsToJson : List (String × ResponseValue) → List (String × Json)
  | [] => []
  | (k, x) :: rest => (k, x.toJson) :: fieldsToJson rest

end

end ResponseValue

/-- An error of a response: message, where in the document, where in the data, and the
extensions its cause reports. -/
structure ResponseError where
  message : String
  locations : List Location := []
  path : Path := []
  extensions : List (String × Value) := []
deriving Repr, Inhabited

/-- The JSON of an error; empty parts are left out. -/
def ResponseError.toJson (e : ResponseError) : Json :=
  .obj ([("message", .str e.message)] ++
    (if e.locations.isEmpty then []
     else [("locations", .arr (e.locations.map fun l =>
       .obj [("line", Json.int l.line), ("column", Json.int l.column)]))]) ++
    (if e.path.isEmpty then [] else [("path", e.path.toJson)]) ++
    (if e.extensions.isEmpty then [] else [("extensions", (Value.map e.extensions).toJson)]))

/-- The result of running a request: the data, null when the request failed as a whole or a
null reached the root, and the errors in the order recorded. -/
structure ExecutionResult where
  data : Option ResponseValue
  errors : List ResponseError
deriving Repr, Inhabited

namespace ExecutionResult

/-- A result that failed as a whole with one error. -/
def failure (e : ResponseError) : ExecutionResult := ⟨none, [e]⟩

/-- The JSON of a result; `errors` is left out when there are none. -/
def toJson (r : ExecutionResult) : Json :=
  .obj ([("data", match r.data with
      | some d => d.toJson
      | none => .null)] ++
    (if r.errors.isEmpty then [] else [("errors", .arr (r.errors.map ResponseError.toJson))]))

end ExecutionResult

end GraphWeave
