import GraphWeave.Resolver.Output
import GraphWeave.Execution.Input
import GraphWeave.Text.Case

/-!
Data recipes: field values described as JSON-shaped host data.
-/

namespace GraphWeave.Recipe

/-- Reads a machine integer text, with an optional sign when `signed`, within `bits`. -/
def parseMachineInt (function : String) (signed : Bool) (bits : Nat) (text : String) :
    Except String Int :=
  let failure (why : String) : Except String Int :=
    .error ("strconv." ++ function ++ ": parsing " ++ Quoted.encode text ++ ": " ++ why)
  let unsigned := !signed && (text.startsWith "+" || text.startsWith "-")
  match parseInteger? text with
  | none => failure "invalid syntax"
  | some n =>
    if unsigned then failure "invalid syntax"
    else if signed then
      if -Int.pow 2 (bits - 1) ≤ n ∧ n < Int.pow 2 (bits - 1) then .ok n else failure "value out of range"
    else if n < Int.pow 2 bits then .ok n else failure "value out of range"

/-- Reads a float text into a format: a decimal, or an infinity or NaN by name. -/
def parseMachineFloat (f : BinaryFormat) (text : String) : Except String (BinaryFloat f) :=
  let lower := lowerCase text
  let body := if lower.startsWith "+" || lower.startsWith "-" then String.ofList (lower.toList.drop 1)
    else lower
  let negative := lower.startsWith "-"
  if body == "inf" || body == "infinity" then
    .ok (if negative then BinaryFloat.infinity.neg else BinaryFloat.infinity)
  else if body == "nan" then .ok BinaryFloat.nan
  else
    match DecimalText.parse? text with
    | some d => .ok (d.toBinary f)
    | none => .error ("strconv.ParseFloat: parsing " ++ Quoted.encode text ++ ": invalid syntax")

/-- The text of a typed value's `v`: a string as it is, anything else by its display. -/
def valueText : Value → String
  | .str s => s
  | v => v.display

/-- A signed integer of a width. -/
def signedOf (w : IntWidth) (v : Value) : Except String Value :=
  (parseMachineInt "ParseInt" true w.bits (valueText v)).map (Value.int w)

/-- An unsigned integer of a width. -/
def unsignedOf (w : IntWidth) (v : Value) : Except String Value :=
  (parseMachineInt "ParseUint" false w.bits (valueText v)).map fun n => Value.uint w n.toNat

/-- A typed value of a kind: the value `{"$go": kind, "v": v}` describes. A pointer's target is
plain data (a string, integer, double or Boolean) or a typed value itself. -/
def typed (fuel : Nat) (kind : String) (v : Value) : Except String Value :=
  match kind with
  | "int" => signedOf .word v
  | "int8" => signedOf .w8 v
  | "int16" => signedOf .w16 v
  | "int32" => signedOf .w32 v
  | "int64" => signedOf .w64 v
  | "uint" => unsignedOf .word v
  | "uint8" => unsignedOf .w8 v
  | "uint16" => unsignedOf .w16 v
  | "uint32" => unsignedOf .w32 v
  | "uint64" => unsignedOf .w64 v
  | "float32" => (parseMachineFloat BinaryFormat.binary32 (valueText v)).map Value.single
  | "float64" => (parseMachineFloat BinaryFormat.binary64 (valueText v)).map Value.double
  | "ID" => .ok (.id (valueText v))
  | "duration" =>
    (parseMachineInt "ParseInt" true 64 (valueText v)).map fun n => Value.duration ⟨n⟩
  | "ptr" =>
    match fuel, v with
    | fuel + 1, .map entries =>
      match Value.lookup entries "$go" with
      | some (.str inner) =>
        (typed fuel inner ((Value.lookup entries "v").getD .null)).map Value.ref
      | _ => .error "pointer target must be plain data or a typed value"
    | _, .str s => .ok (.ref (.str s))
    | _, .int w n => .ok (.ref (.int w n))
    | _, .double x => .ok (.ref (.double x))
    | _, .bool b => .ok (.ref (.bool b))
    | _, _ => .error "pointer target must be plain data or a typed value"
  | _ => .error ("unknown typed value kind " ++ kind)

/-- Whether a map has an entry under a key. -/
def hasKey (entries : List (String × Value)) (key : String) : Bool := entries.any (·.1 == key)

/-- A Boolean entry of a map, false when absent or not a Boolean. -/
def flagOf (entries : List (String × Value)) (key : String) : Bool :=
  match Value.lookup entries key with
  | some (.bool b) => b
  | _ => false

/-- A string entry of a map, empty when absent or not a string. -/
def stringOf (entries : List (String × Value)) (key : String) : String :=
  match Value.lookup entries key with
  | some (.str s) => s
  | _ => ""

/-- The error an `$error` marker describes, with its extensions. -/
def errorOf (entries : List (String × Value)) : FieldError :=
  { message := valueText ((Value.lookup entries "$error").getD .null)
    extensions := match Value.lookup entries "extensions" with
      | some (.map es) => es
      | _ => [] }

/-- Resolves an output value in a mode: referenced for `ref`, consumed otherwise. A reference
reaches a container, a box, an identifier or a field value at its own type, and any other value
as an open value. -/
def resolveIn (mode : String) (out : Output) : Except FieldError FieldValue :=
  if mode == "ref" then
    match out with
    | .host _ => out.referencedAny
    | _ => out.referenced
  else out.owned

mutual

/-- The field value data describes, or the error it makes the resolver fail with. -/
def fieldData (fuel : Nat) (v : Value) : Except FieldError FieldValue :=
  match fuel with
  | 0 => .ok FieldValue.none
  | fuel + 1 =>
    match v with
    | .null => .ok FieldValue.none
    | .list items => .ok (FieldValue.ofList (items.map fun item =>
        match fieldData fuel item with
        | .ok fv => fv
        | .error e => FieldValue.ofError e))
    | .map entries =>
      if hasKey entries "$error" then
        if flagOf entries "$item" then .ok (FieldValue.ofError (errorOf entries))
        else .error (errorOf entries)
      else if hasKey entries "$go" then
        match typed fuel (stringOf entries "$go") ((Value.lookup entries "v").getD .null) with
        | .ok tv => .ok (FieldValue.ofValue tv)
        | .error message => .error { message }
      else if hasKey entries "$output" then
        match output fuel ((Value.lookup entries "$output").getD .null) with
        | .ok out => resolveIn (stringOf entries "$mode") out
        | .error message => .error { message }
      else
        let typeName := stringOf entries "$type"
        if flagOf entries "$ref" then .ok (FieldValue.ofBorrowed (.ref (.map entries)) typeName)
        else .ok (FieldValue.ofOwned (.map entries) typeName)
    | v => .ok (FieldValue.ofValue v)

/-- The output value data describes. -/
def output (fuel : Nat) (v : Value) : Except String Output :=
  match fuel with
  | 0 => .ok (.host .null)
  | fuel + 1 =>
    match v with
    | .map entries =>
      let entry := fun (key : String) => (Value.lookup entries key).getD .null
      if hasKey entries "some" then (output fuel (entry "some")).map (.some .any)
      else if hasKey entries "none" then .ok .none
      else if hasKey entries "ok" then (output fuel (entry "ok")).map (.ok .any)
      else if hasKey entries "err" then .ok (.err (valueText (entry "err")))
      else if hasKey entries "list" then
        match entry "list" with
        | .list items => (items.mapM fun item => output fuel item).map (.list .any)
        | _ => .error "list output must hold an array"
      else if hasKey entries "id" then .ok (.id (valueText (entry "id")))
      else if hasKey entries "box" then
        let borrowed := flagOf entries "borrowed"
        let held := if borrowed then Value.ref (entry "box") else entry "box"
        .ok (.box held (stringOf entries "type") borrowed)
      else if hasKey entries "$go" then
        (typed fuel (stringOf entries "$go") (entry "v")).map .host
      else if hasKey entries "map" then .ok (.host (.map entries))
      else if hasKey entries "fv" then
        .ok (.field (match fieldData fuel (entry "fv") with
          | .ok fv => fv
          | .error e => FieldValue.ofError e))
      else .error "unknown output value"
    | v => .ok (.host v)

end

/-- The field value data describes, with fuel enough for its nesting. -/
def dataValue (v : Value) : Except FieldError FieldValue := fieldData (v.nesting + 2) v

/-- The output value data describes, with fuel enough for its nesting. -/
def outputValue (v : Value) : Except String Output := output (v.nesting + 2) v

end GraphWeave.Recipe
