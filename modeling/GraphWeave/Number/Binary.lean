/-!
IEEE 754 binary interchange formats, read and written exactly.
-/

namespace GraphWeave

/-- A binary interchange format: significand bits, the hidden bit included, and exponent bits. -/
structure BinaryFormat where
  precision : Nat
  exponentBits : Nat
deriving DecidableEq, Repr

namespace BinaryFormat

/-- Double precision. -/
def binary64 : BinaryFormat := ⟨53, 11⟩

/-- Single precision. -/
def binary32 : BinaryFormat := ⟨24, 8⟩

/-- Stored fraction bits. -/
def fractionBits (f : BinaryFormat) : Nat := f.precision - 1

/-- The exponent bias. -/
def bias (f : BinaryFormat) : Nat := Nat.pow 2 (f.exponentBits - 1) - 1

/-- The biased exponent reserved for infinities and NaNs. -/
def topExponent (f : BinaryFormat) : Nat := Nat.pow 2 f.exponentBits - 1

/-- Exponent of the least significand unit of the subnormal binade. -/
def minExponent (f : BinaryFormat) : Int := 1 - (f.bias : Int) - f.fractionBits

/-- Exponent of the least significand unit of the largest finite binade. -/
def maxExponent (f : BinaryFormat) : Int := (f.topExponent : Int) - 1 + f.minExponent - 1

/-- The sign bit, set for a negative value. -/
def signBit (f : BinaryFormat) (negative : Bool) : Nat :=
  if negative then Nat.pow 2 (f.fractionBits + f.exponentBits) else 0

/-- Bits of an infinity. -/
def infinityBits (f : BinaryFormat) (negative : Bool) : Nat :=
  f.signBit negative + f.topExponent * Nat.pow 2 f.fractionBits

/-- Bits of the quiet NaN. -/
def nanBits (f : BinaryFormat) : Nat :=
  f.infinityBits false + Nat.pow 2 (f.fractionBits - 1)

end BinaryFormat

/-- What a bit pattern stands for: `±significand · 2 ^ exponent`, an infinity or a NaN. -/
inductive Decoded where
  | finite (negative : Bool) (significand : Nat) (exponent : Int)
  | infinite (negative : Bool)
  | nan
deriving DecidableEq, Repr

namespace BinaryFormat

/-- Reads a bit pattern. Subnormal numbers keep the least exponent; normal ones get their
hidden bit back. -/
def decode (f : BinaryFormat) (bits : Nat) : Decoded :=
  let fraction := bits % Nat.pow 2 f.fractionBits
  let biased := bits / Nat.pow 2 f.fractionBits % Nat.pow 2 f.exponentBits
  let negative := bits / Nat.pow 2 (f.fractionBits + f.exponentBits) % 2 == 1
  if biased == f.topExponent then
    if fraction == 0 then .infinite negative else .nan
  else if biased == 0 then .finite negative fraction f.minExponent
  else .finite negative (fraction + Nat.pow 2 f.fractionBits) (biased + f.minExponent - 1)

/-- Bits of `±significand · 2 ^ exponent`, for a significand below `2 ^ precision` that fills
its binade unless the exponent is the least one. -/
def pack (f : BinaryFormat) (negative : Bool) (significand : Nat) (exponent : Int) : Nat :=
  if significand < Nat.pow 2 f.fractionBits then f.signBit negative + significand
  else
    f.signBit negative + (exponent - f.minExponent + 1).toNat * Nat.pow 2 f.fractionBits
      + (significand - Nat.pow 2 f.fractionBits)

end BinaryFormat

/-- `den · 2 ^ k ≤ num`, for an exponent of either sign. -/
def scaledLe (den : Nat) (k : Int) (num : Nat) : Bool :=
  if 0 ≤ k then den * Nat.pow 2 k.toNat ≤ num else den ≤ num * Nat.pow 2 (-k).toNat

/-- `⌊log₂ (num / den)⌋` for positive `num` and `den`: the binary lengths fix it up to one. -/
def log2Ratio (num den : Nat) : Int :=
  let k : Int := (num.log2 : Int) - den.log2
  if scaledLe den k num then k else k - 1

namespace BinaryFormat

/-- Bits of the value nearest to `± num / den`, a tie going to the even significand. A
magnitude past the largest finite value becomes infinity, and zero keeps its sign. -/
def roundRatio (f : BinaryFormat) (negative : Bool) (num den : Nat) : Nat :=
  if num == 0 || den == 0 then f.signBit negative
  else
    let e := max (log2Ratio num den - f.fractionBits) f.minExponent
    let n := if 0 ≤ e then num else num * Nat.pow 2 (-e).toNat
    let d := if 0 ≤ e then den * Nat.pow 2 e.toNat else den
    let q := n / d
    let r := n % d
    let q := if 2 * r > d || (2 * r == d && q % 2 == 1) then q + 1 else q
    let (q, e) := if q == Nat.pow 2 f.precision then (Nat.pow 2 f.fractionBits, e + 1) else (q, e)
    if e > f.maxExponent then f.infinityBits negative else f.pack negative q e

end BinaryFormat

/-- A value of the binary format `f`, kept as its bit pattern. -/
structure BinaryFloat (f : BinaryFormat) where
  bits : Nat
deriving DecidableEq, Repr

/-- Double-precision values. -/
abbrev Binary64 := BinaryFloat BinaryFormat.binary64

/-- Single-precision values. -/
abbrev Binary32 := BinaryFloat BinaryFormat.binary32

/-- Number of decimal digits of a natural; zero has none. -/
def decimalLength (n : Nat) : Nat :=
  if n = 0 then 0 else decimalLength (n / 10) + 1
termination_by n
decreasing_by omega

namespace BinaryFloat

variable {f : BinaryFormat}

/-- The value this bit pattern stands for. -/
def decode (x : BinaryFloat f) : Decoded := f.decode x.bits

/-- The value nearest to `± num / den`. -/
def ofRatio (negative : Bool) (num den : Nat) : BinaryFloat f := ⟨f.roundRatio negative num den⟩

/-- The value nearest to an integer. -/
def ofInt (n : Int) : BinaryFloat f := ofRatio (n < 0) n.natAbs 1

/-- The value nearest to `± digits · 10 ^ exponent`. Decimal exponents far outside every
binary format are cut short, since they round to zero or infinity anyway. -/
def ofDecimal (negative : Bool) (digits : Nat) (exponent : Int) : BinaryFloat f :=
  let magnitude := exponent + decimalLength digits
  if digits == 0 || magnitude < -400 then ⟨f.signBit negative⟩
  else if magnitude > 400 then ⟨f.infinityBits negative⟩
  else if 0 ≤ exponent then ofRatio negative (digits * Nat.pow 10 exponent.toNat) 1
  else ofRatio negative digits (Nat.pow 10 (-exponent).toNat)

/-- Positive infinity. -/
def infinity : BinaryFloat f := ⟨f.infinityBits false⟩

/-- The quiet NaN. -/
def nan : BinaryFloat f := ⟨f.nanBits⟩

/-- Positive zero. -/
def zero : BinaryFloat f := ⟨0⟩

/-- The value with its sign flipped. -/
def neg (x : BinaryFloat f) : BinaryFloat f :=
  let top := Nat.pow 2 (f.fractionBits + f.exponentBits)
  if x.bits / top % 2 == 1 then ⟨x.bits - top⟩ else ⟨x.bits + top⟩

/-- The exact value of a finite number as `(negative, numerator, denominator)`. -/
def toRatio? (x : BinaryFloat f) : Option (Bool × Nat × Nat) :=
  match x.decode with
  | .finite negative m e =>
    if 0 ≤ e then some (negative, m * Nat.pow 2 e.toNat, 1) else some (negative, m, Nat.pow 2 (-e).toNat)
  | _ => none

/-- Whether the value is a NaN. -/
def isNaN (x : BinaryFloat f) : Bool := x.decode == .nan

/-- Whether the value is finite. -/
def isFinite (x : BinaryFloat f) : Bool :=
  match x.decode with
  | .finite .. => true
  | _ => false

/-- Whether the value equals its own truncation: every finite integer and both infinities. -/
def isWhole (x : BinaryFloat f) : Bool :=
  match x.decode with
  | .finite _ m e => 0 ≤ e || m % Nat.pow 2 (-e).toNat == 0
  | .infinite _ => true
  | .nan => false

/-- The integer part of a finite value, rounding toward zero. -/
def truncate? (x : BinaryFloat f) : Option Int :=
  match x.toRatio? with
  | some (negative, num, den) =>
    let q : Int := num / den
    some (if negative then -q else q)
  | none => none

/-- Conversion to a signed 64-bit integer as the common hardware does it: the integer part
when it is in range, and the least 64-bit integer for everything else (NaN, infinities and
magnitudes from `2 ^ 63` on). -/
def toInt64 (x : BinaryFloat f) : Int :=
  match x.truncate? with
  | some n => if -Int.pow 2 63 ≤ n ∧ n < Int.pow 2 63 then n else -Int.pow 2 63
  | none => -Int.pow 2 63

/-- The same value in another format, rounded when it does not fit. -/
def convert {g : BinaryFormat} (x : BinaryFloat f) : BinaryFloat g :=
  match x.decode with
  | .finite negative m e =>
    if 0 ≤ e then ofRatio negative (m * Nat.pow 2 e.toNat) 1 else ofRatio negative m (Nat.pow 2 (-e).toNat)
  | .infinite negative => ⟨g.infinityBits negative⟩
  | .nan => nan

/-- Rounded sum. A NaN, or infinities of both signs, give NaN; an exact zero sum is positive
unless both operands are negative zeros. -/
def add (x y : BinaryFloat f) : BinaryFloat f :=
  match x.decode, y.decode with
  | .nan, _ => nan
  | _, .nan => nan
  | .infinite a, .infinite b => if a == b then x else nan
  | .infinite _, _ => x
  | _, .infinite _ => y
  | .finite a m e, .finite b n k =>
    let low := min e k
    let mx := m * Nat.pow 2 (e - low).toNat
    let nx := n * Nat.pow 2 (k - low).toNat
    let (negative, total) :=
      if a == b then (a, mx + nx)
      else if mx ≥ nx then (a, mx - nx) else (b, nx - mx)
    let negative := if total == 0 then a && b else negative
    if 0 ≤ low then ofRatio negative (total * Nat.pow 2 low.toNat) 1
    else ofRatio negative total (Nat.pow 2 (-low).toNat)

/-- Rounded product of two finite values; anything else is NaN. -/
def mul (x y : BinaryFloat f) : BinaryFloat f :=
  match x.toRatio?, y.toRatio? with
  | some (a, n, d), some (b, n', d') => ofRatio (a != b) (n * n') (d * d')
  | _, _ => nan

/-- Rounded quotient of two finite values, the divisor not zero; anything else is NaN. -/
def div (x y : BinaryFloat f) : BinaryFloat f :=
  match x.toRatio?, y.toRatio? with
  | some (a, n, d), some (b, n', d') => if n' == 0 then nan else ofRatio (a != b) (n * d') (d * n')
  | _, _ => nan

/-- Order of the exact values; NaN is comparable to nothing. -/
def le (x y : BinaryFloat f) : Bool :=
  match x.decode, y.decode with
  | .nan, _ => false
  | _, .nan => false
  | .infinite a, .infinite b => a || !b
  | .infinite a, _ => a
  | _, .infinite b => !b
  | _, _ =>
    match x.toRatio?, y.toRatio? with
    | some (a, n, d), some (b, n', d') =>
      let l : Int := if a then -(n * d' : Nat) else (n * d' : Nat)
      let r : Int := if b then -(n' * d : Nat) else (n' * d : Nat)
      l ≤ r
    | _, _ => false

/-- Equality of values: zeros of both signs are equal, a NaN equals nothing. -/
def sameValue (x y : BinaryFloat f) : Bool := x.le y && y.le x

end BinaryFloat

end GraphWeave
