import GraphWeave.Resolver.Output

/-!
Descriptions of host values: a compact text that shows each value with its type.
-/

namespace GraphWeave

mutual

/-- The description of a host value. -/
def Value.describe : Value → String
  | .null => "null"
  | .double x => "float(" ++ x.render Value.floatStyle ++ ")"
  | .str s => "string(" ++ Quoted.encode s ++ ")"
  | .list items => "[" ++ ",".intercalate (Value.describeItems items) ++ "]"
  | .map entries =>
    let sorted := (Value.describeEntries entries).mergeSort fun a b => decide (a.1 ≤ b.1)
    "\x7b" ++ ",".intercalate (sorted.map fun (k, d) => k ++ ":" ++ d) ++ "\x7d"
  | .ref target => "*" ++ target.describe
  | .nilRef _ => "*null"
  | v => v.typeName ++ "(" ++ v.display ++ ")"

/-- Descriptions of list items. -/
def Value.describeItems : List Value → List String
  | [] => []
  | v :: rest => v.describe :: Value.describeItems rest

/-- Keys of map entries with the descriptions of their values. -/
def Value.describeEntries : List (String × Value) → List (String × String)
  | [] => []
  | (k, v) :: rest => (k, v.describe) :: Value.describeEntries rest

end

/-- The description of an output value. -/
def Output.describe : Output → String
  | .host v => v.describe
  | .some _ x => "Some(" ++ x.describe ++ ")"
  | .none => "None"
  | .ok _ x => "Ok(" ++ x.describe ++ ")"
  | .err message => "Err(" ++ Quoted.encode message ++ ")"
  | .list _ items => "List[" ++ ",".intercalate (items.attach.map fun ⟨x, _⟩ => x.describe) ++ "]"
  | .id s => (Value.id s).describe
  | .box v typeName borrowed =>
    "Box(" ++ Quoted.encode typeName ++ "," ++ toString borrowed ++ "," ++ v.describe ++ ")"
  | .field _ => "FieldValue"

end GraphWeave
