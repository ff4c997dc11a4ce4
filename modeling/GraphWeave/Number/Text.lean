import GraphWeave.Number.Shortest

/-!
Texts of numbers: binary values written with their shortest decimal, and decimal texts read into
binary values or bounded integers.
-/

namespace GraphWeave

/-- How a shortest decimal is written. The exponent of the leading digit decides between
positional notation (`positionalFrom ≤ x < positionalUntil`) and exponent notation, which
writes `d.ddde±xx` with at least `exponentDigits` digits. -/
structure FloatStyle where
  positionalFrom : Int
  positionalUntil : Int
  exponentDigits : Nat

namespace Decimal

/-- Digits of a decimal in positional notation. -/
def positional (d : Decimal) : String :=
  let s := toString d.digits
  let nd := s.length
  let point : Int := nd + d.exponent
  if point ≤ 0 then "0." ++ String.ofList (List.replicate (-point).toNat '0') ++ s
  else if point ≥ nd then s ++ String.ofList (List.replicate (point - nd).toNat '0')
  else
    let cs := s.toList
    String.ofList (cs.take point.toNat) ++ "." ++ String.ofList (cs.drop point.toNat)

/-- Digits of a decimal in exponent notation, the exponent padded to `width` digits. -/
def scientific (d : Decimal) (width : Nat) : String :=
  let cs := (toString d.digits).toList
  let x : Int := cs.length + d.exponent - 1
  let mantissa := match cs with
    | [] => "0"
    | [c] => String.singleton c
    | c :: rest => String.singleton c ++ "." ++ String.ofList rest
  let ds := toString x.natAbs
  let ds := String.ofList (List.replicate (width - ds.length) '0') ++ ds
  mantissa ++ "e" ++ (if x < 0 then "-" else "+") ++ ds

/-- Writes a decimal in a style. Zero is `0`. -/
def render (d : Decimal) (style : FloatStyle) : String :=
  if d.digits = 0 then "0"
  else
    let x : Int := (toString d.digits).length + d.exponent - 1
    if style.positionalFrom ≤ x ∧ x < style.positionalUntil then d.positional
    else d.scientific style.exponentDigits

end Decimal

namespace BinaryFloat

variable {f : BinaryFormat}

/-- The shortest decimal of the magnitude, if the value is finite. -/
def shortest? (x : BinaryFloat f) : Option (Bool × Decimal) :=
  match x.decode with
  | .finite negative m e => some (negative, shortestDecimal f m e)
  | _ => none

/-- Text of a value in a style: shortest digits, `+Inf`, `-Inf` or `NaN`. -/
def render (x : BinaryFloat f) (style : FloatStyle) : String :=
  match x.decode with
  | .finite negative m e =>
    (if negative then "-" else "") ++ (shortestDecimal f m e).render style
  | .infinite negative => if negative then "-Inf" else "+Inf"
  | .nan => "NaN"

end BinaryFloat

/-- A decimal text split into sign, digits and exponent: `[+-]? digits [. digits] [(e|E)
[+-]? digits]`, with digits on at least one side of the point. -/
structure DecimalText where
  negative : Bool
  digits : Nat
  exponent : Int
deriving DecidableEq, Repr

namespace DecimalText

private def digitRun (cs : List Char) : List Char × List Char :=
  (cs.takeWhile Char.isDigit, cs.dropWhile Char.isDigit)

private def digitsValue (cs : List Char) : Nat :=
  cs.foldl (fun n c => 10 * n + (c.toNat - '0'.toNat)) 0

/-- Reads a decimal text; `none` when the whole text is not one. -/
def parse? (s : String) : Option DecimalText :=
  let cs := s.toList
  let (negative, cs) := match cs with
    | '-' :: rest => (true, rest)
    | '+' :: rest => (false, rest)
    | _ => (false, cs)
  let (whole, cs) := digitRun cs
  let (fraction, cs) := match cs with
    | '.' :: rest => digitRun rest
    | _ => ([], cs)
  if whole.isEmpty && fraction.isEmpty then none
  else
    let exponent : Option Int := match cs with
      | [] => some 0
      | c :: rest =>
        if c == 'e' || c == 'E' then
          let (eneg, rest) := match rest with
            | '-' :: r => (true, r)
            | '+' :: r => (false, r)
            | _ => (false, rest)
          let (ds, rest) := digitRun rest
          if ds.isEmpty || !rest.isEmpty then none
          else
            let v : Int := digitsValue ds
            some (if eneg then -v else v)
        else none
    exponent.map fun x =>
      ⟨negative, digitsValue (whole ++ fraction), x - fraction.length⟩

/-- The nearest binary value. -/
def toBinary (d : DecimalText) (f : BinaryFormat) : BinaryFloat f :=
  BinaryFloat.ofDecimal d.negative d.digits d.exponent

end DecimalText

/-- Reads an optionally signed run of decimal digits. -/
def parseInteger? (s : String) : Option Int :=
  let cs := s.toList
  let (negative, cs) := match cs with
    | '-' :: rest => (true, rest)
    | '+' :: rest => (false, rest)
    | _ => (false, cs)
  if cs.isEmpty || !cs.all Char.isDigit then none
  else
    let v : Int := cs.foldl (fun n c => 10 * n + (c.toNat - '0'.toNat)) 0
    some (if negative then -v else v)

end GraphWeave
