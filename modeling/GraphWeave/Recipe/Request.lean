import GraphWeave.Definition.Runtime
import GraphWeave.Value.Json

/-!
Requests read from JSON: `{"query", "operationName"?, "variables"?, "headers"?, "noMetadata"?}`.
-/

namespace GraphWeave.Recipe

/-- Metadata from a headers object: each value a string or a list of strings. -/
def metadataOf (headers : List (String × Json)) : Metadata :=
  let sorted := headers.mergeSort fun a b => decide (a.1 ≤ b.1)
  sorted.foldl (fun md (name, v) =>
    let values := match v with
      | .arr xs => xs.filterMap fun x => match x with
        | .str s => some s
        | _ => none
      | .str s => [s]
      | _ => []
    let key := name.toLower
    if md.any (·.1 == key) then md.map fun e => if e.1 == key then (key, e.2 ++ values) else e
    else md ++ [(key, values)]) []

/-- The variables of a request. -/
def variablesOf (j : Json) : Except String (List (String × Value)) :=
  match j.get? "variables" with
  | none | some .null => .ok []
  | some (.obj members) =>
    match Value.ofVariableJson (.obj members) with
    | .map entries => .ok entries
    | _ => .ok []
  | some _ => .error "variables must be an object"

/-- A request with a root value. -/
def request (j : Json) (root : FieldValue) : Except String Request := do
  let variableValues ← variablesOf j
  let metadata := if j.flag "noMetadata" then [] else
    match j.get? "headers" with
    | some (.obj headers) => metadataOf headers
    | _ => []
  pure { query := (j.getStr? "query").getD "", operationName := (j.getStr? "operationName").getD ""
         variableValues, root, metadata }

end GraphWeave.Recipe
