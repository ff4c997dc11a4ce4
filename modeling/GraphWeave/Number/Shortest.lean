import GraphWeave.Number.Binary

/-!
The shortest decimal that reads back as a given binary value.
-/

namespace GraphWeave

/-- A decimal `digits · 10 ^ exponent`; the digits have no trailing zero unless they are zero. -/
structure Decimal where
  digits : Nat
  exponent : Int
deriving DecidableEq, Repr

namespace Decimal

/-- Removes trailing zeros of the digits into the exponent. -/
def normalize (d : Decimal) : Decimal :=
  if d.digits = 0 then ⟨0, 0⟩
  else if d.digits % 10 = 0 then normalize ⟨d.digits / 10, d.exponent + 1⟩
  else d
termination_by d.digits
decreasing_by omega

end Decimal

/-- `⌊log₁₀ (num / den)⌋` for positive `num` and `den`: the decimal lengths fix it up to one. -/
def log10Ratio (num den : Nat) : Int :=
  let k : Int := (decimalLength num : Int) - decimalLength den
  let fits := if 0 ≤ k then den * Nat.pow 10 k.toNat ≤ num else den ≤ num * Nat.pow 10 (-k).toNat
  if fits then k else k - 1

/-- Sign of `c · 10 ^ k - x · 2 ^ s` as an ordering. -/
def compareScaled (c : Nat) (k : Int) (x : Nat) (s : Int) : Ordering :=
  let left := c * Nat.pow 10 k.toNat * Nat.pow 2 (-s).toNat
  let right := x * Nat.pow 10 (-k).toNat * Nat.pow 2 s.toNat
  Ord.compare left right

/-- The interval of reals that read back as `m · 2 ^ e`, in units of `2 ^ (e - 2)`. -/
structure RoundingInterval where
  low : Nat
  high : Nat
  center : Nat
  scale : Int
  closed : Bool

/-- The rounding interval of a positive finite value of format `f`. The gap below is half as
wide at the bottom of a binade, where the exponent steps down. -/
def roundingInterval (f : BinaryFormat) (m : Nat) (e : Int) : RoundingInterval :=
  let below := if m == Nat.pow 2 f.fractionBits && e > f.minExponent then 1 else 2
  ⟨4 * m - below, 4 * m + 2, 4 * m, e - 2, m % 2 == 0⟩

namespace RoundingInterval

/-- Whether `c · 10 ^ k` lies in the interval. -/
def contains (i : RoundingInterval) (c : Nat) (k : Int) : Bool :=
  let above := match compareScaled c k i.low i.scale with
    | .gt => true
    | .eq => i.closed
    | .lt => false
  let under := match compareScaled c k i.high i.scale with
    | .lt => true
    | .eq => i.closed
    | .gt => false
  above && under

/-- The candidate on the grid `10 ^ k` for `n` digits, if one of the two neighbours of the
center is inside; the nearer one wins, and the even one on a tie. -/
def pick (i : RoundingInterval) (k : Int) : Option Decimal :=
  -- the grid point at or below the center: ⌊center · 2 ^ scale / 10 ^ k⌋
  let num := i.center * Nat.pow 2 i.scale.toNat * Nat.pow 10 (-k).toNat
  let den := Nat.pow 2 (-i.scale).toNat * Nat.pow 10 k.toNat
  let lo := num / den
  let hi := lo + 1
  let loIn := i.contains lo k
  let hiIn := num % den != 0 && i.contains hi k
  if loIn && hiIn then
    -- compare the distances: 2 · center against (lo + hi) · 10 ^ k
    match compareScaled (lo + hi) k (2 * i.center) i.scale with
    | .gt => some ⟨lo, k⟩
    | .lt => some ⟨hi, k⟩
    | .eq => some (if lo % 2 == 0 then ⟨lo, k⟩ else ⟨hi, k⟩)
  else if loIn then some ⟨lo, k⟩
  else if hiIn then some ⟨hi, k⟩
  else none

end RoundingInterval

/-- The shortest decimal that reads back as the positive finite value `m · 2 ^ e` of format
`f`. Forty digits are far more than any format here needs; the exact value is the fallback. -/
def shortestDecimal (f : BinaryFormat) (m : Nat) (e : Int) : Decimal :=
  if m = 0 then ⟨0, 0⟩
  else
    let i := roundingInterval f m e
    let lead := if 0 ≤ e then log10Ratio (m * Nat.pow 2 e.toNat) 1 else log10Ratio m (Nat.pow 2 (-e).toNat)
    let found := (List.range 40).findSome? fun (n : Nat) => i.pick (lead - n)
    match found with
    | some d => d.normalize
    | none =>
      if 0 ≤ e then Decimal.normalize ⟨m * Nat.pow 2 e.toNat, 0⟩
      else Decimal.normalize ⟨m * Nat.pow 5 (-e).toNat, e⟩

end GraphWeave
