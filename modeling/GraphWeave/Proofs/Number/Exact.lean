import GraphWeave.Number.Binary
import Mathlib

/-!
Exact values of binary floats: rounding is exact where a double holds the value, and a whole finite
value truncates to its integer.
-/

namespace GraphWeave

/-- The exact value of a decoded bit pattern; none for infinities and NaN. -/
def Decoded.value? : Decoded → Option ℚ
  | .finite negative m e => some ((if negative then -1 else 1) * m * (2 : ℚ) ^ e)
  | _ => none

/-- The exact value of a float; none for infinities and NaN. -/
def BinaryFloat.value? {f : BinaryFormat} (x : BinaryFloat f) : Option ℚ := x.decode.value?


namespace BinaryFormat

theorem binary64_precision : binary64.precision = 53 := rfl
theorem binary64_fractionBits : binary64.fractionBits = 52 := rfl
theorem binary64_exponentBits : binary64.exponentBits = 11 := rfl
theorem binary64_minExponent : binary64.minExponent = -1074 := by decide
theorem binary64_maxExponent : binary64.maxExponent = 971 := by decide
theorem binary64_topExponent : binary64.topExponent = 2047 := by decide
theorem binary64_signBit (negative : Bool) :
    binary64.signBit negative = if negative then 9223372036854775808 else 0 := by
  cases negative <;> decide

/-- A finite bit pattern has a significand below `2 ^ precision` and an exponent between the
least and the greatest of its format. -/
theorem decode_finite_bounds {f : BinaryFormat} (precise : 1 ≤ f.precision)
    (wide : 2 ≤ f.exponentBits) {bits m : Nat} {negative : Bool} {e : Int}
    (h : f.decode bits = .finite negative m e) :
    m < 2 ^ f.precision ∧ f.minExponent ≤ e ∧ e ≤ f.maxExponent := by
  have fractionLt : bits % 2 ^ f.fractionBits < 2 ^ f.fractionBits := Nat.mod_lt _ (by positivity)
  have biasedLt : bits / 2 ^ f.fractionBits % 2 ^ f.exponentBits < 2 ^ f.exponentBits :=
    Nat.mod_lt _ (by positivity)
  have carry : 2 ^ f.precision = 2 * 2 ^ f.fractionBits := by
    rw [fractionBits, ← Nat.pow_succ']; congr 1; omega
  have room : 2 ^ 2 ≤ 2 ^ f.exponentBits := Nat.pow_le_pow_right (by decide) wide
  unfold decode at h
  simp only [Nat.pow_eq] at h
  split_ifs at h with top <;> cases h
  all_goals
    simp only [beq_iff_eq, topExponent, Nat.pow_eq] at top
    unfold maxExponent topExponent
    simp only [Nat.pow_eq]
  · exact ⟨by omega, le_refl _, by omega⟩
  · rename_i normal
    simp only [beq_iff_eq] at normal
    exact ⟨by omega, by omega, by omega⟩

theorem binary64_fields {negative : Bool} {b f bits : Nat} (biased : b < 2048)
    (fraction : f < 4503599627370496)
    (packed : (if negative = true then 9223372036854775808 else 0) + b * 4503599627370496 + f = bits) :
    bits % 4503599627370496 = f ∧ bits / 4503599627370496 % 2048 = b ∧
      (bits / 9223372036854775808 % 2 == 1) = negative := by
  cases negative <;> simp only [Bool.false_eq_true, if_true, if_false] at packed
  case false => exact ⟨by omega, by omega, by simp; omega⟩
  case true => exact ⟨by omega, by omega, by simp; omega⟩

theorem decode_pack_normal (negative : Bool) {q : Nat} {e : Int} (low : 4503599627370496 ≤ q)
    (high : q < 9007199254740992) (least : -1074 ≤ e) (greatest : e ≤ 971) :
    binary64.decode (binary64.pack negative q e) = .finite negative q e := by
  obtain ⟨b, biased, hb⟩ : ∃ b : Nat, (e - -1074 + 1).toNat = b ∧ (b : Int) = e + 1075 :=
    ⟨_, rfl, by omega⟩
  unfold pack decode
  simp only [binary64_signBit, binary64_fractionBits, binary64_exponentBits, binary64_minExponent,
    binary64_topExponent, Nat.pow_eq, Nat.reducePow, Nat.reduceAdd, biased]
  rw [if_neg (show ¬ q < 4503599627370496 by omega)]
  generalize packed : (if negative = true then 9223372036854775808 else 0) + b * 4503599627370496 +
    (q - 4503599627370496) = bits
  obtain ⟨fraction, exponent, sign⟩ := binary64_fields (by omega) (by omega) packed
  rw [fraction, exponent, sign]
  simp only [show (b == 2047) = false by simp; omega, show (b == 0) = false by simp; omega,
    Bool.false_eq_true, if_false, Decoded.finite.injEq, true_and]
  omega

theorem decode_pack_subnormal (negative : Bool) {q : Nat} (small : q < 4503599627370496) :
    binary64.decode (binary64.pack negative q (-1074)) = .finite negative q (-1074) := by
  unfold pack decode
  simp only [binary64_signBit, binary64_fractionBits, binary64_exponentBits, binary64_minExponent,
    binary64_topExponent, Nat.pow_eq, Nat.reducePow, Nat.reduceAdd]
  rw [if_pos small]
  generalize packed : (if negative = true then 9223372036854775808 else 0) + q = bits
  obtain ⟨fraction, exponent, sign⟩ := binary64_fields (b := 0) (by decide) small (by simpa using packed)
  rw [fraction, exponent, sign]
  rfl

end BinaryFormat

theorem scaledLe_iff (den : Nat) (k : Int) (num : Nat) :
    scaledLe den k num = true ↔ (den : ℚ) * 2 ^ k ≤ num := by
  unfold scaledLe
  split
  · rename_i up
    obtain ⟨j, rfl⟩ := Int.eq_ofNat_of_zero_le up
    simp only [Int.toNat_natCast, Nat.pow_eq, decide_eq_true_eq, zpow_natCast]
    exact_mod_cast Iff.rfl
  · rename_i down
    obtain ⟨j, rfl⟩ : ∃ j : Nat, k = -(j : Int) := ⟨(-k).toNat, by omega⟩
    simp only [neg_neg, Int.toNat_natCast, Nat.pow_eq, decide_eq_true_eq, zpow_neg, zpow_natCast]
    rw [← div_eq_mul_inv, div_le_iff₀ (by positivity)]
    exact_mod_cast Iff.rfl

/-- `log2Ratio` is the binade of a positive ratio: `2 ^ k ≤ num / den < 2 ^ (k + 1)`. -/
theorem log2Ratio_spec {num den : Nat} (hn : num ≠ 0) (hd : den ≠ 0) :
    (den : ℚ) * 2 ^ log2Ratio num den ≤ num ∧ (num : ℚ) < den * 2 ^ (log2Ratio num den + 1) := by
  have numLow : (2 : ℚ) ^ (num.log2 : Int) ≤ num := by
    rw [zpow_natCast]; exact_mod_cast Nat.log2_self_le hn
  have numHigh : (num : ℚ) < 2 ^ ((num.log2 : Int) + 1) := by
    rw [show (num.log2 : Int) + 1 = ((num.log2 + 1 : Nat) : Int) by push_cast; rfl, zpow_natCast]
    exact_mod_cast Nat.lt_log2_self
  have denLow : (2 : ℚ) ^ (den.log2 : Int) ≤ den := by
    rw [zpow_natCast]; exact_mod_cast Nat.log2_self_le hd
  have denHigh : (den : ℚ) < 2 ^ ((den.log2 : Int) + 1) := by
    rw [show (den.log2 : Int) + 1 = ((den.log2 + 1 : Nat) : Int) by push_cast; rfl, zpow_natCast]
    exact_mod_cast Nat.lt_log2_self
  have two : (2 : ℚ) ≠ 0 := two_ne_zero
  unfold log2Ratio
  dsimp only
  split
  · rename_i fits
    refine ⟨(scaledLe_iff _ _ _).mp fits, ?_⟩
    calc (num : ℚ) < 2 ^ ((num.log2 : Int) + 1) := numHigh
      _ = 2 ^ (den.log2 : Int) * 2 ^ ((num.log2 : Int) - den.log2 + 1) := by
        rw [← zpow_add₀ two]; ring_nf
      _ ≤ den * 2 ^ ((num.log2 : Int) - den.log2 + 1) := by gcongr
  · rename_i exceeds
    rw [scaledLe_iff] at exceeds
    refine ⟨?_, by rw [sub_add_cancel]; exact lt_of_not_ge exceeds⟩
    calc (den : ℚ) * 2 ^ ((num.log2 : Int) - den.log2 - 1)
        ≤ 2 ^ ((den.log2 : Int) + 1) * 2 ^ ((num.log2 : Int) - den.log2 - 1) := by
          gcongr
      _ = 2 ^ (num.log2 : Int) := by rw [← zpow_add₀ two]; ring_nf
      _ ≤ num := numLow

/-- Scaling a ratio by `2 ^ -e`, as the rounding does, is exact when it gives a whole number. -/
theorem scaled_div_exact {num den q : Nat} {e : Int} (hd : den ≠ 0)
    (exact : (q : ℚ) * 2 ^ e = num / den) :
    0 < (if 0 ≤ e then den * Nat.pow 2 e.toNat else den) ∧
      (if 0 ≤ e then num else num * Nat.pow 2 (-e).toNat) /
          (if 0 ≤ e then den * Nat.pow 2 e.toNat else den) = q ∧
      (if 0 ≤ e then num else num * Nat.pow 2 (-e).toNat) %
          (if 0 ≤ e then den * Nat.pow 2 e.toNat else den) = 0 := by
  have denPos : (0 : ℚ) < den := by exact_mod_cast Nat.pos_of_ne_zero hd
  by_cases up : 0 ≤ e
  · obtain ⟨j, rfl⟩ := Int.eq_ofNat_of_zero_le up
    simp only [up, if_true, Int.toNat_natCast, Nat.pow_eq, zpow_natCast] at exact ⊢
    have whole : num = q * (den * 2 ^ j) := by
      rw [eq_div_iff denPos.ne'] at exact
      exact_mod_cast (by rw [← exact]; ring : (num : ℚ) = q * (den * 2 ^ j))
    have scaledPos : 0 < den * 2 ^ j := by positivity
    refine ⟨scaledPos, ?_, ?_⟩
    · rw [whole, Nat.mul_div_cancel _ scaledPos]
    · rw [whole, Nat.mul_mod_left]
  · obtain ⟨j, rfl⟩ : ∃ j : Nat, e = -(j : Int) := ⟨(-e).toNat, by omega⟩
    simp only [up, if_false, neg_neg, Int.toNat_natCast, Nat.pow_eq, zpow_neg, zpow_natCast] at exact ⊢
    have whole : num * 2 ^ j = q * den := by
      rw [eq_div_iff denPos.ne'] at exact
      have twoPos : (0 : ℚ) < 2 ^ j := by positivity
      field_simp at exact
      exact_mod_cast (by linarith : (num : ℚ) * 2 ^ j = q * den)
    have pos : 0 < den := Nat.pos_of_ne_zero hd
    refine ⟨pos, ?_, ?_⟩
    · rw [whole, Nat.mul_div_cancel _ pos]
    · rw [whole, Nat.mul_mod_left]

/-- Rounding a ratio to a double is exact when a double holds it: a significand below
`2 ^ 53` times a power of two in the double's range. -/
theorem roundRatio_exact (negative : Bool) {num den m : Nat} {E : Int} (hn : num ≠ 0) (hd : den ≠ 0)
    (significand : m < 9007199254740992) (least : -1074 ≤ E) (greatest : E ≤ 971)
    (held : (num : ℚ) / den = m * 2 ^ E) :
    ∃ q e, BinaryFormat.binary64.decode (BinaryFormat.binary64.roundRatio negative num den) =
      .finite negative q e ∧ (q : ℚ) * 2 ^ e = num / den := by
  have two : (1 : ℚ) < 2 := one_lt_two
  have denPos : (0 : ℚ) < den := by exact_mod_cast Nat.pos_of_ne_zero hd
  obtain ⟨low, high⟩ := log2Ratio_spec hn hd
  unfold BinaryFormat.roundRatio
  simp only [BinaryFormat.binary64_fractionBits, BinaryFormat.binary64_minExponent,
    BinaryFormat.binary64_maxExponent, Nat.cast_ofNat]
  rw [if_neg (by simp [hn, hd])]
  generalize log2Ratio num den = k at low high ⊢
  have lowRatio : (2 : ℚ) ^ k ≤ num / den := by rw [le_div_iff₀ denPos]; linarith
  have highRatio : (num : ℚ) / den < 2 ^ (k + 1) := by rw [div_lt_iff₀ denPos]; linarith
  have binade : k < E + 53 := by
    have : (2 : ℚ) ^ k < 2 ^ (E + 53) := by
      calc (2 : ℚ) ^ k ≤ m * 2 ^ E := held ▸ lowRatio
        _ < 9007199254740992 * 2 ^ E := by gcongr; exact_mod_cast significand
        _ = 2 ^ (E + 53) := by rw [zpow_add₀ two_ne_zero]; norm_num; ring
    exact (zpow_lt_zpow_iff_right₀ two).mp this
  set e := max (k - 52) (-1074) with he
  have below : e ≤ E := max_le (by omega) least
  obtain ⟨j, hj⟩ : ∃ j : Nat, (j : Int) = E - e := ⟨(E - e).toNat, by omega⟩
  have exact : ((m * 2 ^ j : Nat) : ℚ) * 2 ^ e = num / den := by
    rw [held]; push_cast
    rw [mul_assoc, ← zpow_natCast, ← zpow_add₀ two_ne_zero, hj]; ring_nf
  generalize m * 2 ^ j = q at exact
  have scaled : (q : ℚ) = num / den / 2 ^ e := by
    rw [← exact, mul_div_assoc, div_self (by positivity), mul_one]
  have fits : q < 9007199254740992 := by
    have : (q : ℚ) < 2 ^ (53 : Int) := by
      calc (q : ℚ) = num / den / 2 ^ e := scaled
        _ < 2 ^ (k + 1) / 2 ^ e := by gcongr
        _ = 2 ^ (k + 1 - e) := by rw [zpow_sub₀ two_ne_zero]
        _ ≤ 2 ^ (53 : Int) := zpow_le_zpow_right₀ two.le (by omega)
    exact_mod_cast this
  obtain ⟨dPos, quotient, remainder⟩ := scaled_div_exact hd exact
  simp only [quotient, remainder, Nat.mul_zero]
  generalize (if 0 ≤ e then den * Nat.pow 2 e.toNat else den) = d at dPos ⊢
  have kept : (decide (0 > d) || 0 == d && q % 2 == 1) = false := by simp; omega
  have noCarry : (q == Nat.pow 2 BinaryFormat.binary64.precision) = false := by
    simp only [BinaryFormat.binary64_precision, Nat.pow_eq, Nat.reducePow, beq_eq_false_iff_ne]
    omega
  simp only [kept, noCarry, Bool.false_eq_true, if_false]
  rw [if_neg (by omega)]
  refine ⟨q, e, ?_, exact⟩
  by_cases full : 4503599627370496 ≤ q
  · exact BinaryFormat.decode_pack_normal negative full fits (le_max_right _ _) (by omega)
  · have least : e = -1074 := by
      by_contra above
      have binadeExp : e = k - 52 := by omega
      have : (2 : ℚ) ^ (52 : Int) ≤ q := by
        calc (2 : ℚ) ^ (52 : Int) = 2 ^ k / 2 ^ e := by
              rw [← zpow_sub₀ two_ne_zero, binadeExp, sub_sub_cancel]
          _ ≤ num / den / 2 ^ e := by gcongr
          _ = q := scaled.symm
      exact full (by exact_mod_cast this)
    rw [least]
    exact BinaryFormat.decode_pack_subnormal negative (by omega)

namespace BinaryFormat

theorem binary64_decode_signBit (negative : Bool) :
    binary64.decode (binary64.signBit negative) = .finite negative 0 (-1074) := by
  cases negative <;> rfl

theorem binary64_decode_infinityBits (negative : Bool) :
    binary64.decode (binary64.infinityBits negative) = .infinite negative := by
  cases negative <;> rfl

theorem binary64_decode_nanBits : binary64.decode binary64.nanBits = .nan := rfl

theorem binary64_decode_bounds {bits m : Nat} {negative : Bool} {e : Int}
    (h : binary64.decode bits = .finite negative m e) :
    m < 9007199254740992 ∧ -1074 ≤ e ∧ e ≤ 971 := by
  have bounds := decode_finite_bounds (by decide) (by decide) h
  rwa [binary64_precision, binary64_minExponent, binary64_maxExponent] at bounds

theorem binary32_decode_bounds {bits m : Nat} {negative : Bool} {e : Int}
    (h : binary32.decode bits = .finite negative m e) :
    m < 16777216 ∧ -149 ≤ e ∧ e ≤ 104 := by
  have bounds := decode_finite_bounds (by decide) (by decide) h
  rwa [show binary32.precision = 24 from rfl, show binary32.minExponent = -149 by decide,
    show binary32.maxExponent = 104 by decide] at bounds

end BinaryFormat

namespace BinaryFloat

variable {f : BinaryFormat}

@[simp] theorem decode_mk (bits : Nat) : (⟨bits⟩ : BinaryFloat f).decode = f.decode bits := rfl

theorem value?_eq_some {x : BinaryFloat f} {r : ℚ} :
    x.value? = some r ↔
      ∃ negative m e, x.decode = .finite negative m e ∧ r = (if negative then -1 else 1) * m * 2 ^ e := by
  unfold value?
  cases x.decode with
  | finite negative m e => simp [Decoded.value?, eq_comm]
  | infinite => simp [Decoded.value?]
  | nan => simp [Decoded.value?]

theorem value?_ofRatio (negative : Bool) {num den m : Nat} {E : Int} (hd : den ≠ 0)
    (significand : m < 9007199254740992) (least : -1074 ≤ E) (greatest : E ≤ 971)
    (held : (num : ℚ) / den = m * 2 ^ E) :
    (ofRatio negative num den : Binary64).value? =
      some ((if negative then -1 else 1) * ((num : ℚ) / den)) := by
  unfold value? ofRatio
  rw [decode_mk]
  by_cases zero : num = 0
  · subst zero
    simp only [BinaryFormat.roundRatio, beq_self_eq_true, Bool.true_or, if_true,
      BinaryFormat.binary64_decode_signBit, Decoded.value?]
    simp
  · obtain ⟨q, e, decoded, exact⟩ := roundRatio_exact negative zero hd significand least greatest held
    simp only [decoded, Decoded.value?, mul_assoc, exact]

/-- An integer reaches a double unchanged exactly when some double holds it. -/
theorem value?_ofInt_iff (n : Int) :
    (ofInt n : Binary64).value? = some (n : ℚ) ↔ ∃ y : Binary64, y.value? = some (n : ℚ) := by
  refine ⟨fun exact => ⟨_, exact⟩, ?_⟩
  rintro ⟨y, held⟩
  obtain ⟨negative, m, e, decoded, value⟩ := value?_eq_some.mp held
  obtain ⟨significand, least, greatest⟩ := BinaryFormat.binary64_decode_bounds decoded
  have magnitude : ((n.natAbs : Nat) : ℚ) / (1 : Nat) = m * 2 ^ e := by
    have sign : |(if negative then -1 else 1 : ℚ)| = 1 := by split <;> simp
    rw [Nat.cast_one, div_one, Nat.cast_natAbs, Int.cast_abs, value, abs_mul, abs_mul, sign, one_mul,
      Nat.abs_cast, abs_of_pos (by positivity : (0 : ℚ) < 2 ^ e)]
  rw [ofInt, value?_ofRatio _ one_ne_zero significand least greatest magnitude]
  rw [Nat.cast_one, div_one, Nat.cast_natAbs, Int.cast_abs]
  by_cases negativeN : n < 0
  · simp [negativeN, abs_of_neg (show (n : ℚ) < 0 by exact_mod_cast negativeN)]
  · simp [negativeN, abs_of_nonneg (show (0 : ℚ) ≤ n by exact_mod_cast not_lt.mp negativeN)]

/-- Every single reaches a double unchanged: its value, or the infinity or NaN it is. -/
theorem value?_convert (x : Binary32) : (x.convert : Binary64).value? = x.value? := by
  unfold convert
  nth_rewrite 2 [value?]
  cases decoded : x.decode with
  | infinite negative =>
    rw [value?, decode_mk, BinaryFormat.binary64_decode_infinityBits]
  | nan =>
    rw [nan, value?, decode_mk, BinaryFormat.binary64_decode_nanBits]
  | finite negative m e =>
    obtain ⟨significand, least, greatest⟩ := BinaryFormat.binary32_decode_bounds decoded
    rw [Decoded.value?, mul_assoc]
    dsimp only
    split
    · rename_i up
      obtain ⟨k, rfl⟩ := Int.eq_ofNat_of_zero_le up
      have held : ((m * Nat.pow 2 (k : Int).toNat : Nat) : ℚ) / (1 : Nat) = m * 2 ^ (k : Int) := by
        simp [Nat.pow_eq]
      rw [value?_ofRatio negative one_ne_zero (by omega) (by omega) (by omega) held, held]
    · rename_i down
      obtain ⟨k, rfl⟩ : ∃ k : Nat, e = -(k : Int) := ⟨(-e).toNat, by omega⟩
      have held : (m : ℚ) / ((Nat.pow 2 (-(-(k : Int))).toNat : Nat) : ℚ) = m * 2 ^ (-(k : Int)) := by
        simp [Nat.pow_eq, div_eq_mul_inv]
      have scale : Nat.pow 2 (-(-(k : Int))).toNat ≠ 0 := by simp [Nat.pow_eq]
      rw [value?_ofRatio negative scale (by omega) (by omega) (by omega) held, held]

/-- A signed significand scaled down by `2 ^ k` is an integer only when `2 ^ k` divides the
significand, and it is then the signed quotient. -/
theorem signed_div_of_eq {negative : Bool} {m k : Nat} {n : Int}
    (h : (if negative then -1 else 1) * (m : ℚ) * (2 : ℚ) ^ (-(k : Int)) = n) :
    m % 2 ^ k = 0 ∧ (if negative then -((m / 2 ^ k : Nat) : Int) else ((m / 2 ^ k : Nat) : Int)) = n := by
  have scaled : (if negative then -(m : ℤ) else m) = n * 2 ^ k := by
    have pos : (0 : ℚ) < 2 ^ k := by positivity
    rw [zpow_neg, zpow_natCast] at h
    field_simp at h
    have : ((if negative then -(m : ℤ) else m : ℤ) : ℚ) = ((n * 2 ^ k : ℤ) : ℚ) := by
      push_cast
      cases negative <;> simp at h ⊢ <;> linarith
    exact_mod_cast this
  have divides : 2 ^ k ∣ m := by
    have : ((2 ^ k : ℕ) : ℤ) ∣ (m : ℤ) := by
      cases negative
      · exact ⟨n, by simpa [mul_comm] using scaled⟩
      · exact ⟨-n, by simp at scaled; push_cast; linarith⟩
    exact_mod_cast this
  refine ⟨Nat.mod_eq_zero_of_dvd divides, ?_⟩
  have whole : ((m / 2 ^ k : ℕ) : ℤ) * 2 ^ k = m := by
    exact_mod_cast Nat.div_mul_cancel divides
  have ne : (2 : ℤ) ^ k ≠ 0 := by positivity
  generalize ((m / 2 ^ k : ℕ) : ℤ) = q at whole ⊢
  apply mul_right_cancel₀ ne
  cases negative
  · simp only [Bool.false_eq_true, if_false] at scaled ⊢
    linarith
  · simp only [if_true] at scaled ⊢
    linarith

/-- A finite float whose value is an integer has no fraction: it truncates to that integer and
counts as whole. -/
theorem truncate?_of_value {x : BinaryFloat f} {n : Int} (integral : x.value? = some (n : ℚ)) :
    x.truncate? = some n ∧ x.isWhole = true := by
  unfold value? at integral
  cases finite : x.decode with
  | infinite => simp [finite, Decoded.value?] at integral
  | nan => simp [finite, Decoded.value?] at integral
  | finite negative m e =>
    simp only [finite, Decoded.value?, Option.some.injEq] at integral
    simp only [truncate?, toRatio?, isWhole, finite]
    by_cases up : 0 ≤ e
    · obtain ⟨k, rfl⟩ := Int.eq_ofNat_of_zero_le up
      have : (if negative then -((m * 2 ^ k : ℕ) : ℤ) else ((m * 2 ^ k : ℕ) : ℤ)) = n := by
        have : ((if negative then -((m * 2 ^ k : ℕ) : ℤ) else ((m * 2 ^ k : ℕ) : ℤ) : ℤ) : ℚ) = n := by
          rw [← integral]
          cases negative <;> simp
        exact_mod_cast this
      simpa [Nat.pow_eq] using this
    · obtain ⟨k, rfl⟩ : ∃ k : Nat, e = -(k : Int) := ⟨(-e).toNat, by omega⟩
      obtain ⟨rem, quotient⟩ := signed_div_of_eq integral
      have nonzero : k ≠ 0 := by omega
      rw [Int.natCast_div, Nat.cast_pow] at quotient
      simpa [nonzero, Nat.pow_eq, rem] using quotient

/-- A whole finite float is the integer it truncates to. -/
theorem value?_of_truncate? {x : BinaryFloat f} {n : Int} (whole : x.isWhole = true)
    (truncated : x.truncate? = some n) : x.value? = some (n : ℚ) := by
  unfold truncate? toRatio? at truncated
  unfold isWhole at whole
  rw [value?]
  cases decoded : x.decode with
  | infinite => simp [decoded] at truncated
  | nan => simp [decoded] at truncated
  | finite negative m e =>
    simp only [decoded] at truncated whole
    rw [Decoded.value?]
    by_cases up : 0 ≤ e
    · obtain ⟨k, rfl⟩ := Int.eq_ofNat_of_zero_le up
      simp only [up, if_true, Int.toNat_natCast, Nat.pow_eq, Option.some.injEq] at truncated
      subst truncated
      cases negative <;> simp
    · obtain ⟨k, rfl⟩ : ∃ k : Nat, e = -(k : Int) := ⟨(-e).toNat, by omega⟩
      simp only [up, if_false, neg_neg, Int.toNat_natCast, Nat.pow_eq, Option.some.injEq]
        at truncated
      simp only [up, decide_false, Bool.false_or, neg_neg, Int.toNat_natCast, Nat.pow_eq,
        beq_iff_eq] at whole
      have divides : 2 ^ k ∣ m := Nat.dvd_of_mod_eq_zero whole
      have exact : (m : ℚ) * 2 ^ (-(k : Int)) = ((m / 2 ^ k : Nat) : ℚ) := by
        rw [Nat.cast_div divides (by positivity), zpow_neg, zpow_natCast, div_eq_mul_inv]
        push_cast; rfl
      rw [← Int.natCast_div] at truncated
      subst truncated
      rw [mul_assoc, exact]
      cases negative
      · simp only [Bool.false_eq_true, if_false, one_mul, Int.cast_natCast]
      · simp only [if_true, neg_one_mul, Int.cast_neg, Int.cast_natCast]

theorem toInt64_of_value {x : BinaryFloat f} {n : Int} (integral : x.value? = some (n : ℚ)) :
    x.toInt64 = if -Int.pow 2 63 ≤ n ∧ n < Int.pow 2 63 then n else -Int.pow 2 63 := by
  rw [toInt64, (truncate?_of_value integral).1]

/-- A float passes as a 32-bit integer, whole and converted inside 32 bits, exactly when it is
finite and holds that integer. -/
theorem whole_int32_iff {x : BinaryFloat f} {P : Int → Prop} :
    (x.isWhole = true ∧ -Int.pow 2 31 ≤ x.toInt64 ∧ x.toInt64 < Int.pow 2 31 ∧ P x.toInt64) ↔
      ∃ n : Int, x.value? = some (n : ℚ) ∧ -Int.pow 2 31 ≤ n ∧ n < Int.pow 2 31 ∧ P n := by
  have half : Int.pow 2 31 = 2147483648 := by decide
  have top : Int.pow 2 63 = 9223372036854775808 := by decide
  constructor
  · rintro ⟨whole, low, high, holds⟩
    refine ⟨x.toInt64, ?_, low, high, holds⟩
    generalize converted : x.toInt64 = n at low high
    unfold toInt64 at converted
    split at converted
    · rename_i t truncated
      split at converted
      · subst converted
        exact value?_of_truncate? whole truncated
      · omega
    · omega
  · rintro ⟨n, integral, low, high, holds⟩
    have converted : x.toInt64 = n := by rw [toInt64_of_value integral, if_pos (by omega)]
    exact ⟨(truncate?_of_value integral).2, converted ▸ low, converted ▸ high, converted ▸ holds⟩

end BinaryFloat

end GraphWeave
