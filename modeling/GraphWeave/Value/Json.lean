import GraphWeave.Value.Basic
import GraphWeave.Json.Basic

/-!
Host values read from JSON and written as JSON.
-/

namespace GraphWeave

namespace Value

/-- The number rule for data: a plain integer within 64 bits stays an integer. -/
def ofJsonNumber (n : JsonNumber) : Value :=
  match n.toInt64? with
  | some v => .int .word v
  | none => .double n.toBinary64

mutual

/-- Reads JSON as host data. -/
def ofJson : Json → Value
  | .null => .null
  | .bool b => .bool b
  | .num n => ofJsonNumber n
  | .str s => .str s
  | .arr items => .list (ofJsonItems items)
  | .obj members => .map (Json.dedupMembers (ofJsonMembers members))

/-- Reads the items of an array. -/
def ofJsonItems : List Json → List Value
  | [] => []
  | j :: rest => ofJson j :: ofJsonItems rest

/-- Reads the members of an object. -/
def ofJsonMembers : List (String × Json) → List (String × Value)
  | [] => []
  | (k, j) :: rest => (k, ofJson j) :: ofJsonMembers rest

end

mutual

/-- Reads JSON as request variables: every number is a double. -/
def ofVariableJson : Json → Value
  | .num n => .double n.toBinary64
  | .arr items => .list (ofVariableItems items)
  | .obj members => .map (Json.dedupMembers (ofVariableMembers members))
  | j => ofJson j

/-- Reads the items of a variable array. -/
def ofVariableItems : List Json → List Value
  | [] => []
  | j :: rest => ofVariableJson j :: ofVariableItems rest

/-- Reads the members of a variable object. -/
def ofVariableMembers : List (String × Json) → List (String × Value)
  | [] => []
  | (k, j) :: rest => (k, ofVariableJson j) :: ofVariableMembers rest

end

end Value

namespace JsonNumber

/-- The number written for a binary value: its shortest digits, marked integral when the text
has neither point nor exponent, which is so for whole values below `10 ^ 21`. Infinities and
NaN have no number. -/
def ofFloat? {f : BinaryFormat} (x : BinaryFloat f) : Option JsonNumber :=
  x.shortest?.map fun (negative, d) =>
    let lead : Int := decimalLength d.digits + d.exponent
    ⟨negative, d.digits, d.exponent, d.digits == 0 || (0 ≤ d.exponent && lead ≤ 21)⟩

end JsonNumber

namespace Value

mutual

/-- The JSON a host value is written as; `none` when it holds a float with no JSON number. -/
def toJson? : Value → Option Json
  | .null => some .null
  | .bool b => some (.bool b)
  | .int _ n => some (Json.int n)
  | .uint _ n => some (Json.int n)
  | .double x => (JsonNumber.ofFloat? x).map .num
  | .single x => (JsonNumber.ofFloat? x).map .num
  | .str s => some (.str s)
  | .id s => some (.str s)
  | .enumLiteral s => some (.str s)
  | .duration d => some (Json.int d.nanos)
  | .list items => (itemsToJson? items).map .arr
  | .map entries =>
    (entriesToJson? entries).map fun ms => .obj (ms.mergeSort fun a b => decide (a.1 ≤ b.1))
  | .ref target => toJson? target
  | .nilRef _ => some .null
  | .record _ fields => (entriesToJson? fields).map .obj

/-- JSON of list items. -/
def itemsToJson? : List Value → Option (List Json)
  | [] => some []
  | v :: rest =>
    match toJson? v, itemsToJson? rest with
    | some j, some js => some (j :: js)
    | _, _ => none

/-- JSON of map entries or record fields, in the order given. -/
def entriesToJson? : List (String × Value) → Option (List (String × Json))
  | [] => some []
  | (k, v) :: rest =>
    match toJson? v, entriesToJson? rest with
    | some j, some js => some ((k, j) :: js)
    | _, _ => none

end

/-- The JSON of a value, with `null` where a float has no JSON number. -/
def toJson (v : Value) : Json := (toJson? v).getD .null

end Value

end GraphWeave
