import GraphWeave.Proofs.Number.Exact
import GraphWeave.Proofs.Execution.Coercion
import GraphWeave.Definition.Runtime
import Mathlib

/-!
Numbers at the leaves of inputs and results: what `Int`, `Float` and `ID` accept and write, read
against the exact number a host value holds.
-/

namespace GraphWeave

/-- The number a host value holds as an input: a signed integer of a width inputs take, or a
finite float. -/
def Value.number? : Value → Option ℚ
  | .int .word n | .int .w32 n | .int .w64 n => some n
  | .double x => x.value?
  | .single x => x.value?
  | _ => none

/-- The number a result leaf holds as `Int` reads it: a machine integer of any width, signed or
not, or a finite double. -/
def Leaf.number? : Leaf → Option ℚ
  | .host (.int _ n) => some n
  | .host (.uint _ n) => some ((n : Int) : ℚ)
  | .host (.double x) => x.value?
  | _ => none

/-- A check that passes one value and fails otherwise. -/
theorem ite_eq_ok_iff {ε α : Type} {c : Prop} [Decidable c] {a b : α} {e : ε} :
    (if c then Except.ok a else Except.error e) = Except.ok b ↔ c ∧ b = a := by
  split
  · rename_i passes
    constructor
    · intro same
      cases same
      exact ⟨passes, rfl⟩
    · rintro ⟨-, rfl⟩
      rfl
  · rename_i fails
    constructor
    · intro same
      cases same
    · rintro ⟨passes, -⟩
      exact absurd passes fails

namespace Coerce

private theorem asInt_float_ok_iff {f : BinaryFormat} (x : BinaryFloat f) (e : InputError) (w : Value) :
    (match (if x.isWhole then Except.ok x.toInt64 else Except.error e) with
      | .ok n => if -Int.pow 2 31 ≤ n ∧ n < Int.pow 2 31 then Except.ok (Value.int .word n)
          else .error (InputError.intRange n)
      | .error e => .error e) = .ok w ↔
      ∃ n : Int, x.value? = some (n : ℚ) ∧ -Int.pow 2 31 ≤ n ∧ n < Int.pow 2 31 ∧ w = .int .word n := by
  rw [← BinaryFloat.whole_int32_iff]
  by_cases whole : x.isWhole
  · simp only [whole, if_true, ite_eq_ok_iff, and_assoc, true_and]
  · simp [whole]

theorem asInt_ok_iff (v w : Value) :
    asInt v = .ok w ↔
      ∃ n : Int, v.number? = some (n : ℚ) ∧ -Int.pow 2 31 ≤ n ∧ n < Int.pow 2 31 ∧ w = .int .word n := by
  cases v with
  | int width n =>
    cases width <;>
      simp only [asInt, Value.number?, ite_eq_ok_iff, and_assoc, reduceCtorEq, false_iff,
        not_exists, false_and, not_false_eq_true, implies_true, Option.some.injEq, Int.cast_inj,
        exists_eq_left']
  | double x => exact asInt_float_ok_iff x _ w
  | single x => exact asInt_float_ok_iff x _ w
  | _ => simp [asInt, Value.number?]

/-- `Float` keeps the number a value holds exactly when some double holds it: always for
floats, and for integers up to the precision of a double. -/
theorem asFloat_exact_iff {v : Value} {r : ℚ} (held : v.number? = some r) :
    (∃ y, asFloat v = .ok (.double y) ∧ y.value? = some r) ↔ ∃ y : Binary64, y.value? = some r := by
  constructor
  · rintro ⟨y, -, exact⟩
    exact ⟨y, exact⟩
  rintro ⟨y, holds⟩
  cases v with
  | int width n =>
    cases width <;> simp only [Value.number?, reduceCtorEq, Option.some.injEq] at held
    all_goals
      subst held
      exact ⟨_, rfl, (BinaryFloat.value?_ofInt_iff n).mpr ⟨y, holds⟩⟩
  | double x => exact ⟨x, rfl, held⟩
  | single x => exact ⟨x.convert, rfl, (BinaryFloat.value?_convert x).trans held⟩
  | _ => simp [Value.number?] at held

theorem asId_double {x : Binary64} {n : Int} (integral : x.value? = some (n : ℚ)) :
    asId (.double x) =
      .ok (.str (toString (if -Int.pow 2 63 ≤ n ∧ n < Int.pow 2 63 then n else -Int.pow 2 63))) := by
  rw [asId, if_pos (BinaryFloat.truncate?_of_value integral).2, BinaryFloat.toInt64_of_value integral]

end Coerce

namespace Serialize

/-- Serializing a result as `Int` takes exactly the integers within 32 bits that a leaf holds,
machine integers of every width and whole doubles, and writes them as they are. -/
theorem int_ok_iff (v : Leaf) (j : Json) :
    int v = .ok j ↔
      ∃ n : Int, v.number? = some (n : ℚ) ∧ -Int.pow 2 31 ≤ n ∧ n < Int.pow 2 31 ∧ j = Json.int n := by
  unfold int
  cases v with
  | list items =>
    constructor
    · intro refused
      cases refused
    · rintro ⟨n, held, -⟩
      cases held
  | host v =>
    cases v with
    | int width n =>
      simp only [Leaf.number?, fail, ite_eq_ok_iff, and_assoc, Option.some.injEq, Int.cast_inj,
        exists_eq_left']
    | uint width n =>
      have half : Int.pow 2 31 = 2147483648 := by decide
      have wide : Nat.pow 2 31 = 2147483648 := by decide
      cases width
      case w8 | w16 | w32 =>
        simp only [Leaf.number?, fail, ite_eq_ok_iff, and_assoc, Option.some.injEq,
          Int.cast_inj, exists_eq_left']
      case word | w64 =>
        simp only [Leaf.number?, fail, Option.some.injEq, Int.cast_inj, exists_eq_left']
        by_cases big : n > Nat.pow 2 31 - 1
        · simp only [big, if_true, reduceCtorEq, false_iff]
          omega
        · simp only [big, if_false, ite_eq_ok_iff, and_assoc]
    | double x =>
      simp only [Leaf.number?]
      rw [← BinaryFloat.whole_int32_iff]
      by_cases whole : x.isWhole
      · simp only [whole, if_true, fail, ite_eq_ok_iff, and_assoc, true_and]
      · simp [whole, fail]
    | _ => simp only [fail, Leaf.number?, reduceCtorEq, false_and, exists_false]

end Serialize

/-- Numbers at the leaves of inputs and results. `Int` coerces a value exactly when it holds an
integer within 32 bits, and gives that integer; `Float` keeps the number a value holds exactly
when some double holds that number; `ID` writes a whole double as the decimal of its conversion
to 64 bits; serializing as `Int` takes exactly the integers within 32 bits that a leaf holds. -/
theorem numeric_leaf_conversions (s : Schema) :
    (∀ v w, s.coerce v (.named "Int") = .ok w ↔
      (v = .null ∧ w = .null) ∨
        ∃ n : Int, v.number? = some (n : ℚ) ∧ -Int.pow 2 31 ≤ n ∧ n < Int.pow 2 31 ∧
          w = .int .word n) ∧
    (∀ v (r : ℚ), v.number? = some r →
      ((∃ y, s.coerce v (.named "Float") = .ok (.double y) ∧ y.value? = some r) ↔
        ∃ y : Binary64, y.value? = some r)) ∧
    (∀ (x : Binary64) (n : Int), x.value? = some (n : ℚ) →
      s.coerce (.double x) (.named "ID") =
        .ok (.str (toString (if -Int.pow 2 63 ≤ n ∧ n < Int.pow 2 63 then n else -Int.pow 2 63)))) ∧
    (∀ (v : Leaf) j, Serialize.int v = .ok j ↔
      ∃ n : Int, v.number? = some (n : ℚ) ∧ -Int.pow 2 31 ≤ n ∧ n < Int.pow 2 31 ∧
        j = Json.int n) := by
  refine ⟨fun v w => ?_, fun v r held => ?_, fun x n integral => ?_, Serialize.int_ok_iff⟩
  · unfold Schema.coerce
    by_cases present : v = .null
    · subst present
      simp [Value.number?, eq_comm]
    · rw [coerceInput_int _ _ _ present, Coerce.asInt_ok_iff]
      simp only [present, false_and, false_or]
  · have present : v ≠ .null := by
      rintro rfl
      simp [Value.number?] at held
    unfold Schema.coerce
    rw [coerceInput_float _ _ _ present]
    exact Coerce.asFloat_exact_iff held
  · unfold Schema.coerce
    rw [coerceInput_id _ _ (.double x) (by simp)]
    exact Coerce.asId_double integral

/-- `2 ^ 53` is an integer that a double holds: it reaches `Float` unchanged, and as a double its
`ID` is its own decimal. -/
theorem two_pow_53_exact :
    (Value.int .word 9007199254740992).number? = some 9007199254740992 ∧
      ((∃ y, ({} : Schema).coerce (.int .word 9007199254740992) (.named "Float") = .ok (.double y) ∧
          y.value? = some 9007199254740992) ↔
        ∃ y : Binary64, y.value? = some 9007199254740992) ∧
    (BinaryFloat.ofInt 9007199254740992 : Binary64).value? = some ((9007199254740992 : Int) : ℚ) ∧
      ({} : Schema).coerce (.double (BinaryFloat.ofInt 9007199254740992)) (.named "ID") =
        .ok (.str (toString (if -Int.pow 2 63 ≤ 9007199254740992 ∧ (9007199254740992 : Int) < Int.pow 2 63
          then 9007199254740992 else -Int.pow 2 63))) := by
  have held : (Value.int .word 9007199254740992).number? = some 9007199254740992 := by decide
  have integral : (BinaryFloat.ofInt 9007199254740992 : Binary64).value? =
      some ((9007199254740992 : Int) : ℚ) := by decide +kernel
  exact ⟨held, (numeric_leaf_conversions {}).2.1 _ _ held, integral,
    (numeric_leaf_conversions {}).2.2.1 _ _ integral⟩

/-- The literal `99999999999999999999` is too wide for 64 bits and is read as the double that
holds it exactly, `1e20`; `ID` writes it as the least 64-bit integer. The literal
`9007199254740993` is read as an integer that no double holds, and `Float` gives `2 ^ 53`. -/
theorem wide_literals_inexact :
    (Literal.toValue [] (.int "99999999999999999999")).number? = some 100000000000000000000 ∧
      ({} : Schema).coerce (Literal.toValue [] (.int "99999999999999999999")) (.named "ID") =
        .ok (.str "-9223372036854775808") ∧
      ∃ y, ({} : Schema).coerce (Literal.toValue [] (.int "9007199254740993")) (.named "Float") =
          .ok (.double y) ∧ y.value? = some 9007199254740992 := by
  have wide : Literal.toValue [] (.int "99999999999999999999") = .double ⟨4906019910204099648⟩ := by
    with_unfolding_all rfl
  have exact : (⟨4906019910204099648⟩ : Binary64).value? = some ((100000000000000000000 : Int) : ℚ) := by
    decide +kernel
  have narrow : Literal.toValue [] (.int "9007199254740993") = .int .word 9007199254740993 := rfl
  refine ⟨by rw [wide]; exact exact, ?_, BinaryFloat.ofInt 9007199254740993, ?_, by decide +kernel⟩
  · rw [wide, Schema.coerce, coerceInput_id _ _ (.double _) (by simp), Coerce.asId_double exact, if_neg (by decide)]
    rfl
  · rw [narrow, Schema.coerce, coerceInput_float _ _ (.int .word _) (by simp)]
    rfl

end GraphWeave
