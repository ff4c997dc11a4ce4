import GraphWeave.Number.Text
import GraphWeave.Time.Duration

/-!
Host values: the dynamically typed data that resolvers return and that arguments and variables are
coerced to.
-/

namespace GraphWeave

/-- Width of a machine integer; `word` is the 64-bit default integer. -/
inductive IntWidth where
  | word
  | w8
  | w16
  | w32
  | w64
deriving DecidableEq, Repr

namespace IntWidth

/-- Bits of the width. -/
def bits : IntWidth → Nat
  | .word => 64
  | .w8 => 8
  | .w16 => 16
  | .w32 => 32
  | .w64 => 64

/-- The suffix of the type name: none for the default integer. -/
def suffix : IntWidth → String
  | .word => ""
  | w => toString w.bits

end IntWidth

/-- A host value. -/
inductive Value where
  | null
  | bool (b : Bool)
  /-- A signed machine integer. -/
  | int (width : IntWidth) (n : Int)
  /-- An unsigned machine integer. -/
  | uint (width : IntWidth) (n : Nat)
  | double (x : Binary64)
  | single (x : Binary32)
  | str (s : String)
  /-- An identifier: a string of its own type. -/
  | id (s : String)
  /-- The literal name of an enum value, as written in a document. -/
  | enumLiteral (name : String)
  | duration (d : Duration)
  | list (items : List Value)
  /-- A map from strings to values; its keys are distinct. -/
  | map (entries : List (String × Value))
  /-- A reference to a value held elsewhere. -/
  | ref (target : Value)
  /-- A reference to nothing, of a type named by its target type. -/
  | nilRef (targetType : String)
  /-- A record of a named type, with its fields in declaration order. -/
  | record (typeName : String) (fields : List (String × Value))
deriving Repr, Inhabited

namespace Value

/-- The default integer. -/
def ofInt (n : Int) : Value := .int .word n

/-- A double. -/
def ofBinary64 (x : Binary64) : Value := .double x

/-- Display of doubles and singles: positional from `1e-4` up to `1e6`, else `d.ddde±XX`. -/
def floatStyle : FloatStyle := ⟨-4, 6, 2⟩

mutual

/-- The name of the value's type: `int`, `float64`, `[]interface {}`, `*string`, … and
`<nil>` for null. -/
def typeName : Value → String
  | .null => "<nil>"
  | .bool _ => "bool"
  | .int w _ => "int" ++ w.suffix
  | .uint w _ => "uint" ++ w.suffix
  | .double _ => "float64"
  | .single _ => "float32"
  | .str _ => "string"
  | .id _ => "output.ID"
  | .enumLiteral _ => "schema.EnumLiteral"
  | .duration _ => "time.Duration"
  | .list _ => "[]interface \x7b\x7d"
  | .map _ => "map[string]interface \x7b\x7d"
  | .ref target => "*" ++ refTypeName target
  | .nilRef t => "*" ++ t
  | .record name _ => name

/-- The type name of a reference's target: null targets are of the open type. -/
def refTypeName : Value → String
  | .null => "interface \x7b\x7d"
  | v => typeName v

end

/-- Sorts map entries by key. -/
def sortEntries (entries : List (String × Value)) : List (String × Value) :=
  entries.mergeSort fun a b => decide (a.1 ≤ b.1)

mutual

/-- The display text of a value. -/
def display : Value → String
  | .null => "<nil>"
  | .bool b => if b then "true" else "false"
  | .int _ n => toString n
  | .uint _ n => toString n
  | .double x => x.render floatStyle
  | .single x => x.render floatStyle
  | .str s => s
  | .id s => s
  | .enumLiteral s => s
  | .duration d => d.render
  | .list items => "[" ++ " ".intercalate (displayItems items) ++ "]"
  | .map entries =>
    let sorted := (displayEntries entries).mergeSort fun a b => decide (a.1 ≤ b.1)
    "map[" ++ " ".intercalate (sorted.map fun (k, v) => k ++ ":" ++ v) ++ "]"
  | .ref target => "&" ++ display target
  | .nilRef _ => "<nil>"
  | .record _ fields => "\x7b" ++ " ".intercalate (displayFields fields) ++ "\x7d"

/-- Display texts of list items. -/
def displayItems : List Value → List String
  | [] => []
  | v :: rest => display v :: displayItems rest

/-- Keys of map entries with the display texts of their values. -/
def displayEntries : List (String × Value) → List (String × String)
  | [] => []
  | (k, v) :: rest => (k, display v) :: displayEntries rest

/-- Display texts of record fields, values only. -/
def displayFields : List (String × Value) → List String
  | [] => []
  | (_, v) :: rest => display v :: displayFields rest

end

/-- Whether the value is null. -/
def isNull : Value → Bool
  | .null => true
  | _ => false

/-- Whether the value is absent: null, or a reference to nothing. -/
def isAbsent : Value → Bool
  | .null | .nilRef _ => true
  | _ => false

/-- The entry of a map under a key. -/
def lookup (entries : List (String × Value)) (key : String) : Option Value :=
  (entries.find? (·.1 == key)).map (·.2)

/-- Sets the entry of a key: in its place when present, else at the end. -/
def assign (entries : List (String × Value)) (key : String) (v : Value) : List (String × Value) :=
  if entries.any (·.1 == key) then entries.map fun e => if e.1 == key then (key, v) else e
  else entries ++ [(key, v)]

/-- Whether a signed integer fits a width. -/
def IntWidth.fitsSigned (w : IntWidth) (n : Int) : Bool :=
  -Int.pow 2 (w.bits - 1) ≤ n && n < Int.pow 2 (w.bits - 1)

/-- Whether an unsigned integer fits a width. -/
def IntWidth.fitsUnsigned (w : IntWidth) (n : Nat) : Bool := n < Nat.pow 2 w.bits

end Value

end GraphWeave
