import GraphWeave.Number.Text

/-!
JSON documents. A number keeps its exact decimal value and whether it was written as a plain
integer, since readers of this library tell integers from other numbers by that; objects keep
their members in the order they were written.
-/

namespace GraphWeave

/-- A JSON number: `± digits · 10 ^ exponent`, and whether it was written without fraction or
exponent. -/
structure JsonNumber where
  negative : Bool
  digits : Nat
  exponent : Int
  integral : Bool
deriving DecidableEq, Repr

/-- A JSON document. -/
inductive Json where
  | null
  | bool (b : Bool)
  | num (n : JsonNumber)
  | str (s : String)
  | arr (items : List Json)
  | obj (members : List (String × Json))
deriving Repr, Inhabited

namespace JsonNumber

/-- An integer, written as one. -/
def ofInt (n : Int) : JsonNumber := ⟨n < 0, n.natAbs, 0, true⟩

/-- The exact value when it is an integer. -/
def toInt? (n : JsonNumber) : Option Int :=
  if n.exponent ≥ 0 then
    let v : Int := n.digits * Int.pow 10 n.exponent.toNat
    some (if n.negative then -v else v)
  else if n.digits % Nat.pow 10 (-n.exponent).toNat == 0 then
    let v : Int := n.digits / Int.pow 10 (-n.exponent).toNat
    some (if n.negative then -v else v)
  else none

/-- The nearest double. -/
def toBinary64 (n : JsonNumber) : Binary64 := BinaryFloat.ofDecimal n.negative n.digits n.exponent

/-- A finite binary value by its shortest decimal; infinities and NaN have no JSON number. -/
def ofBinary? {f : BinaryFormat} (x : BinaryFloat f) : Option JsonNumber :=
  x.shortest?.map fun (negative, d) => ⟨negative, d.digits, d.exponent, false⟩

/-- An integer written plainly whose value fits a signed 64-bit integer. -/
def toInt64? (n : JsonNumber) : Option Int :=
  if n.integral then
    match n.toInt? with
    | some v => if -Int.pow 2 63 ≤ v ∧ v < Int.pow 2 63 then some v else none
    | none => none
  else none

end JsonNumber

namespace Json

/-- A JSON integer. -/
def int (n : Int) : Json := .num (JsonNumber.ofInt n)

/-- A double as a JSON number; infinities and NaN become null. -/
def double {f : BinaryFormat} (x : BinaryFloat f) : Json :=
  match JsonNumber.ofBinary? x with
  | some n => .num n
  | none => .null

/-- The last member of an object with the given key. -/
def get? (j : Json) (key : String) : Option Json :=
  match j with
  | .obj members => (members.reverse.find? (·.1 == key)).map (·.2)
  | _ => none

/-- Whether an object has a member with the given key. -/
def has (j : Json) (key : String) : Bool := (j.get? key).isSome

/-- A string member, if present and a string. -/
def getStr? (j : Json) (key : String) : Option String :=
  match j.get? key with
  | some (.str s) => some s
  | _ => none

/-- A Boolean member, `false` when absent or not a Boolean. -/
def flag (j : Json) (key : String) : Bool :=
  match j.get? key with
  | some (.bool b) => b
  | _ => false

/-- An array member's items, empty when absent or not an array. -/
def items (j : Json) (key : String) : List Json :=
  match j.get? key with
  | some (.arr xs) => xs
  | _ => []

/-- The members of an object, without repeated keys: the last write of a key wins and keeps
the place of its first. -/
def dedupMembers {α : Type} (members : List (String × α)) : List (String × α) :=
  members.foldl (fun acc (k, v) =>
    if acc.any (·.1 == k) then acc.map fun (k', v') => if k' == k then (k', v) else (k', v')
    else acc ++ [(k, v)]) []

end Json

end GraphWeave
