import GraphWeave.Proofs.Document.Grammar
import GraphWeave.Schema.Render
import Mathlib

/-!
How the lexical grammar reads the literals of schema text: a quoted string reads back as itself
exactly when each of its characters does, a description block reads back as its lines with
their ends made line feeds, and an integer is a number of the grammar's form.
-/

namespace GraphWeave

open Lexical

namespace Quoted

/-- The characters whose written form the grammar reads back as the same character: the two
escaped ones, the printable ones, those with a one-letter escape, and the rest of the basic
plane above ASCII, written with a four-digit escape. -/
def readsBack (c : Char) : Bool :=
  c == '"' || c == '\\' || isPrintable c || c == '\x08' || c == '\x0c' || c == '\n' || c == '\r' ||
    c == '\t' || (0x80 ≤ c.toNat && c.toNat < 0x10000)

theorem isPrintable_eq_false_of_lt {c : Char} (control : c.toNat < 0x20) :
    isPrintable c = false := by
  rw [isPrintable, show printableChangePoints = 0x20 :: printableChangePoints.tail from rfl,
    List.takeWhile_cons_of_neg (by simpa using control)]
  rfl

theorem le_toNat_of_isPrintable {c : Char} (printable : isPrintable c = true) : 0x20 ≤ c.toNat := by
  by_contra control
  rw [isPrintable_eq_false_of_lt (by omega)] at printable
  exact Bool.false_ne_true printable

theorem hexDigits_four {n : Nat} (small : n < 0x10000) :
    (hexDigits n 4).toList = [Nat.digitChar (n / 0x1000), Nat.digitChar (n / 0x100 % 16),
      Nat.digitChar (n / 0x10 % 16), Nat.digitChar (n % 16)] := by
  unfold hexDigits
  rw [String.toList_ofList]
  rcases (show n < 16 ∨ (16 ≤ n ∧ n < 256) ∨ (256 ≤ n ∧ n < 4096) ∨ 4096 ≤ n by omega)
    with h | h | h | h
  · rw [Nat.toDigits_of_lt_base h]
    have : n / 4096 = 0 ∧ n / 256 % 16 = 0 ∧ n / 16 % 16 = 0 ∧ n % 16 = n := by omega
    simp [this]
  · rw [Nat.toDigits_of_base_le (by omega) h.1, Nat.toDigits_of_lt_base (by omega)]
    have : n / 4096 = 0 ∧ n / 256 % 16 = 0 ∧ n / 16 % 16 = n / 16 := by omega
    simp [this]
  · rw [Nat.toDigits_of_base_le (by omega) (by omega),
      Nat.toDigits_of_base_le (by omega) (by omega), Nat.toDigits_of_lt_base (by omega)]
    have : n / 4096 = 0 ∧ n / 16 / 16 = n / 256 % 16 ∧ n / 16 % 16 = n / 16 % 16 := by omega
    simp [this]
  · rw [Nat.toDigits_of_base_le (by omega) (by omega),
      Nat.toDigits_of_base_le (by omega) (by omega),
      Nat.toDigits_of_base_le (by omega) (by omega), Nat.toDigits_of_lt_base (by omega)]
    have : n / 16 / 16 / 16 = n / 4096 ∧ n / 16 / 16 % 16 = n / 256 % 16 := by omega
    simp [this]

theorem hexValue?_digitChar {k : Nat} (digit : k < 16) :
    Scanner.hexValue? (Nat.digitChar k) = some k := by
  have table : ∀ k < 16, Scanner.hexValue? (Nat.digitChar k) = some k := by decide
  exact table k digit

theorem hexCode_hexDigits (c : Char) (small : c.toNat < 0x10000) :
    ∃ a b d e, (hexDigits c.toNat 4).toList = [a, b, d, e] ∧ hexCode a b d e = some c.toNat ∧
      ¬ (0xD800 ≤ c.toNat ∧ c.toNat < 0xE000) := by
  refine ⟨_, _, _, _, hexDigits_four small, ?_, ?_⟩
  · have value : ((c.toNat / 0x1000 * 16 + c.toNat / 0x100 % 16) * 16 + c.toNat / 0x10 % 16) * 16 +
        c.toNat % 16 = c.toNat := by omega
    simp only [hexCode, hexValue?_digitChar (show c.toNat / 0x1000 < 16 by omega),
      hexValue?_digitChar (show c.toNat / 0x100 % 16 < 16 by omega),
      hexValue?_digitChar (show c.toNat / 0x10 % 16 < 16 by omega),
      hexValue?_digitChar (show c.toNat % 16 < 16 by omega), value]
  · have valid := c.valid
    simp only [UInt32.isValidChar, Nat.isValidChar] at valid
    have : c.toNat = c.val.toNat := rfl
    omega

/-- How the grammar reads the written form of each character: a one-letter escape it has, the
character itself, or a four-digit escape, for the characters that read back; an escape it does
not have for the others. -/
theorem escapeChar_shape (c : Char) :
    (readsBack c = true ∧
      ((∃ e, (escapeChar c).toList = ['\\', e] ∧ Scanner.escapedChar? e = some c) ∨
        ((escapeChar c).toList = [c] ∧ c ≠ '\\' ∧ c ≠ '"' ∧ 0x20 ≤ c.toNat) ∨
        (∃ a b d e, (escapeChar c).toList = ['\\', 'u', a, b, d, e] ∧
          hexCode a b d e = some c.toNat ∧ ¬ (0xD800 ≤ c.toNat ∧ c.toNat < 0xE000)))) ∨
    (readsBack c = false ∧ ∃ e tail, (escapeChar c).toList = '\\' :: e :: tail ∧ e ≠ 'u' ∧
      Scanner.escapedChar? e = none) := by
  unfold escapeChar
  by_cases quote : c = '"'
  · subst quote
    exact .inl ⟨by decide, .inl ⟨'"', rfl, rfl⟩⟩
  by_cases backslash : c = '\\'
  · subst backslash
    exact .inl ⟨by decide, .inl ⟨'\\', rfl, rfl⟩⟩
  simp only [beq_iff_eq, quote, backslash, if_false]
  by_cases printable : isPrintable c = true
  · simp only [printable, if_true, String.toList_singleton]
    exact .inl ⟨by simp [readsBack, printable], .inr (.inl
      ⟨trivial, backslash, quote, le_toNat_of_isPrintable printable⟩)⟩
  simp only [printable, Bool.false_eq_true, if_false]
  by_cases bell : c = '\x07'
  · subst bell
    exact .inr ⟨by simp [readsBack, printable], 'a', [], rfl, by decide, rfl⟩
  simp only [bell, if_false]
  by_cases backspace : c = '\x08'
  · subst backspace
    exact .inl ⟨by decide, .inl ⟨'b', rfl, rfl⟩⟩
  simp only [backspace, if_false]
  by_cases formFeed : c = '\x0c'
  · subst formFeed
    exact .inl ⟨by decide, .inl ⟨'f', rfl, rfl⟩⟩
  simp only [formFeed, if_false]
  by_cases lineFeed : c = '\n'
  · subst lineFeed
    exact .inl ⟨by decide, .inl ⟨'n', rfl, rfl⟩⟩
  simp only [lineFeed, if_false]
  by_cases carriageReturn : c = '\r'
  · subst carriageReturn
    exact .inl ⟨by decide, .inl ⟨'r', rfl, rfl⟩⟩
  simp only [carriageReturn, if_false]
  by_cases tab : c = '\t'
  · subst tab
    exact .inl ⟨by decide, .inl ⟨'t', rfl, rfl⟩⟩
  simp only [tab, if_false]
  by_cases verticalTab : c = '\x0b'
  · subst verticalTab
    exact .inr ⟨by simp [readsBack, printable], 'v', [], rfl, by decide, rfl⟩
  simp only [verticalTab, if_false]
  have named : (c == '"' || c == '\\' || isPrintable c || c == '\x08' || c == '\x0c' || c == '\n' ||
      c == '\r' || c == '\t') = false := by
    simp [quote, backslash, printable, backspace, formFeed, lineFeed, carriageReturn, tab]
  by_cases ascii : c.toNat < 0x80
  · simp only [ascii, if_true, String.toList_append]
    refine .inr ⟨?_, 'x', _, rfl, by decide, rfl⟩
    simp only [readsBack, named, Bool.false_or]
    simp [show ¬ 0x80 ≤ c.toNat by omega]
  simp only [ascii, if_false]
  by_cases basic : c.toNat < 0x10000
  · simp only [basic, if_true, String.toList_append]
    obtain ⟨a, b, d, e, digits, code, plain⟩ := hexCode_hexDigits c basic
    refine .inl ⟨?_, .inr (.inr ⟨a, b, d, e, by rw [digits]; rfl, code, plain⟩)⟩
    simp only [readsBack, named, Bool.false_or]
    simp [show 0x80 ≤ c.toNat by omega, basic]
  · simp only [basic, if_false, String.toList_append]
    refine .inr ⟨?_, 'U', _, rfl, by decide, rfl⟩
    simp only [readsBack, named, Bool.false_or]
    simp [basic]

/-- The written forms of characters, then a closing quote, are a string value of those
characters when each reads back, and are refused otherwise. -/
theorem stringRead_escaped (cs rest : List Char) :
    StringRead (cs.flatMap (fun c => (escapeChar c).toList) ++ '"' :: rest)
      (if cs.all readsBack then some (cs, rest) else none) := by
  induction cs with
  | nil => exact .close rest
  | cons c cs ih =>
    rw [List.flatMap_cons, List.append_assoc]
    rcases escapeChar_shape c with
      ⟨readable, ⟨e, shape, escaped⟩ | ⟨shape, notBackslash, notQuote, printing⟩ |
        ⟨a, b, d, e, shape, code, plain⟩⟩ | ⟨unreadable, e, tail, shape, notUnicode, unknown⟩
    all_goals rw [shape]
    · have step := StringRead.escape escaped ih
      simpa [readable, push_eq, apply_ite (Option.map _)] using step
    · have notLine : c ≠ '\n' := by rintro rfl; simp at printing
      have notReturn : c ≠ '\r' := by rintro rfl; simp at printing
      have step := StringRead.char notQuote notBackslash notLine notReturn (.inl printing) ih
      simpa [readable, push_eq, apply_ite (Option.map _)] using step
    · have step := StringRead.unicode code plain ih
      simpa [readable, push_eq, apply_ite (Option.map _)] using step
    · simpa [unreadable] using @StringRead.unknown _ (tail ++ _) unknown notUnicode

theorem toList_encode (s : String) :
    (encode s).toList = '"' :: (s.toList.flatMap (fun c => (escapeChar c).toList) ++ ['"']) := by
  simp [encode, String.toList_join, List.flatMap_map]

theorem escapeChar_head (c : Char) : ∃ h t, (escapeChar c).toList = h :: t ∧ h ≠ '"' := by
  rcases escapeChar_shape c with
    ⟨-, ⟨e, shape, -⟩ | ⟨shape, -, notQuote, -⟩ | ⟨a, b, d, e, shape, -⟩⟩ | ⟨-, e, tail, shape, -⟩
  · exact ⟨'\\', [e], shape, by decide⟩
  · exact ⟨c, [], shape, notQuote⟩
  · exact ⟨'\\', ['u', a, b, d, e], shape, by decide⟩
  · exact ⟨'\\', e :: tail, shape, by decide⟩

end Quoted

namespace Lexical

theorem Digits.concat {ds : List Char} (digits : Digits ds) :
    ∃ t c, ds = t ++ [c] ∧ c.isDigit = true := by
  obtain ⟨t, c, rfl⟩ := (List.eq_nil_or_concat' ds).resolve_left digits.1
  exact ⟨t, c, rfl, digits.2 c (by simp)⟩

namespace Numeral

/-- The numeral of an integer: a minus for a negative one, then its decimal digits. -/
def ofInt (n : Int) : Numeral where
  negative := decide (n < 0)
  whole := Nat.toDigits 10 n.natAbs

theorem toDigits_head?_ne_zero {m : Nat} (pos : 0 < m) : (Nat.toDigits 10 m).head? ≠ some '0' := by
  induction m using Nat.strong_induction_on with
  | _ m ih =>
  by_cases small : m < 10
  · rw [Nat.toDigits_of_lt_base small]
    interval_cases m <;> decide
  · rw [Nat.toDigits_of_base_le (by decide) (by omega)]
    have high : 0 < m / 10 := by omega
    obtain ⟨d, ds, digits⟩ := List.exists_cons_of_ne_nil (Nat.toDigits_ne_nil (n := m / 10) (b := 10))
    have first := ih (m / 10) (by omega) high
    rw [digits] at first ⊢
    simpa using first

theorem ofInt_wellFormed (n : Int) : (ofInt n).WellFormed where
  whole := by
    by_cases zero : n.natAbs = 0
    · left
      simp [ofInt, zero]
    · right
      refine ⟨⟨Nat.toDigits_ne_nil, fun d mem => Nat.isDigit_of_mem_toDigits (by decide) le_rfl mem⟩, ?_⟩
      exact toDigits_head?_ne_zero (Nat.pos_of_ne_zero zero)
  fraction := by simp [ofInt]
  exponent := by simp [ofInt]

theorem ofInt_text (n : Int) : (ofInt n).text = (toString n).toList := by
  cases n with
  | ofNat m => simp [ofInt, text, fractionText, exponentText, toString, Int.repr, Nat.repr]
  | negSucc m => simp [ofInt, text, fractionText, exponentText, toString, Int.repr, Nat.repr]

theorem ofInt_kind (n : Int) : (ofInt n).kind = .int := rfl

/-- A numeral ends with a digit: of its exponent, else of its fraction, else of its integer
part. -/
theorem WellFormed.text_concat {n : Numeral} (well : n.WellFormed) :
    ∃ t c, n.text = t ++ [c] ∧ c.isDigit = true := by
  rcases exponent : n.exponent with _ | ⟨letter, sign, ds⟩
  · rcases fraction : n.fraction with _ | ds
    · have whole : Digits n.whole := by
        rcases well.whole with zero | ⟨digits, -⟩
        exacts [⟨by simp [zero], by simp [zero]⟩, digits]
      obtain ⟨t, c, eq, digit⟩ := whole.concat
      exact ⟨(if n.negative then ['-'] else []) ++ t, c,
        by simp [text, exponent, fraction, fractionText, exponentText, eq],
        digit⟩
    · obtain ⟨t, c, eq, digit⟩ := (well.fraction ds (by simp [fraction])).concat
      exact ⟨(if n.negative then ['-'] else []) ++ n.whole ++ '.' :: t, c,
        by simp [text, exponent, fraction, fractionText, exponentText, eq],
        digit⟩
  · have digits : Digits ds := (well.exponent (letter, sign, ds) (by simp [exponent])).2.2
    obtain ⟨t, c, eq, digit⟩ := digits.concat
    exact ⟨(if n.negative then ['-'] else []) ++ n.whole ++ fractionText n.fraction ++
        letter :: sign.toList ++ t, c,
      by simp [text, exponent, exponentText, eq], digit⟩

end Numeral

end Lexical

namespace Schema

/-- Line ends read as line feeds: a carriage return with the line feed after it, or alone. -/
def normalizeLines : List Char → List Char
  | '\r' :: '\n' :: rest => '\n' :: normalizeLines rest
  | '\r' :: rest => '\n' :: normalizeLines rest
  | c :: rest => c :: normalizeLines rest
  | [] => []

/-- The characters a block string may hold: all but the control characters other than tab and
line ends. -/
def isSource (c : Char) : Bool := 0x20 ≤ c.toNat || c == '\t' || c == '\n' || c == '\r'

theorem exists_of_take_two {s : List Char} (two : s.take 2 = ['"', '"']) :
    ∃ rest, s = '"' :: '"' :: rest := by
  rcases s with _ | ⟨d, _ | ⟨e, s⟩⟩ <;> simp at two
  obtain ⟨rfl, rfl⟩ := two
  exact ⟨s, rfl⟩

theorem escapeBlock_cons {c : Char} {s : List Char} (plain : ¬ (c = '"' ∧ s.take 2 = ['"', '"'])) :
    escapeBlock (c :: s) = c :: escapeBlock s := by
  rw [escapeBlock]
  rintro rest rfl rfl
  simp at plain

theorem normalizeLines_cons {c : Char} {s : List Char} (notReturn : c ≠ '\r') :
    normalizeLines (c :: s) = c :: normalizeLines s := by
  rw [normalizeLines]
  all_goals simp_all

theorem escapeBlock_take_two {s more : List Char} (notTwo : s.take 2 ≠ ['"', '"']) :
    (escapeBlock s ++ '\n' :: more).take 2 ≠ ['"', '"'] := by
  rcases s with _ | ⟨c, _ | ⟨d, s⟩⟩
  · simp [escapeBlock]
  · simp [escapeBlock]
  · by_cases quote : c = '"'
    · subst quote
      have notQuote : d ≠ '"' := by simpa using notTwo
      rw [escapeBlock_cons (by simp [notQuote]), escapeBlock_cons (by simp [notQuote])]
      simp [notQuote]
    · rw [escapeBlock_cons (fun h => quote h.1)]
      simp [quote]

/-- Escaped text before a line end never opens with three quotes. -/
theorem escapeBlock_take_three (s more : List Char) :
    (escapeBlock s ++ '\n' :: more).take 3 ≠ ['"', '"', '"'] := by
  rcases s with _ | ⟨c, s⟩
  · simp [escapeBlock]
  · by_cases triple : c = '"' ∧ s.take 2 = ['"', '"']
    · obtain ⟨rfl, two⟩ := triple
      obtain ⟨s, rfl⟩ := exists_of_take_two two
      simp [escapeBlock]
    · rw [escapeBlock_cons triple]
      by_cases quote : c = '"'
      · subst quote
        have notTwo : s.take 2 ≠ ['"', '"'] := fun two => triple ⟨rfl, two⟩
        intro three
        rw [List.cons_append, List.take_succ_cons] at three
        exact escapeBlock_take_two notTwo (List.cons.inj three).2
      · simp [quote]

theorem escapeBlock_head?_ne {d : Char} (s more : List Char) (notLine : d ≠ '\n') :
    (escapeBlock (d :: s) ++ more).head? ≠ some '\n' := by
  by_cases triple : d = '"' ∧ s.take 2 = ['"', '"']
  · obtain ⟨rfl, two⟩ := triple
    obtain ⟨s, rfl⟩ := exists_of_take_two two
    simp [escapeBlock]
  · simp [escapeBlock_cons triple, notLine]

/-- A description block's escaped text, closed on a line of its own, reads back as the text with
its line ends made line feeds, the closing line's included; a control character other than tab
and line ends fails the read. -/
theorem blockRead_escapeBlock (rest s : List Char) :
    BlockRead (escapeBlock s ++ '\n' :: '"' :: '"' :: '"' :: rest)
      (if s.all isSource then some (normalizeLines (s ++ ['\n']), rest) else none) := by
  induction len : s.length using Nat.strong_induction_on generalizing s with
  | _ n ih =>
  have tail : ∀ s' : List Char, s'.length < n → BlockRead (escapeBlock s' ++ '\n' :: '"' :: '"' :: '"' :: rest)
      (if s'.all isSource then some (normalizeLines (s' ++ ['\n']), rest) else none) :=
    fun s' shorter => ih _ shorter s' rfl
  rcases s with _ | ⟨c, s⟩
  · simpa [escapeBlock, normalizeLines, push_eq] using
      BlockRead.char (c := '\n') (by simp) (by simp) (by simp) (by simp) (BlockRead.close rest)
  by_cases triple : c = '"' ∧ s.take 2 = ['"', '"']
  · obtain ⟨rfl, two⟩ := triple
    obtain ⟨s, rfl⟩ := exists_of_take_two two
    have read := BlockRead.quotes (tail s (by rw [← len]; simp only [List.length_cons]; omega))
    simpa [escapeBlock, isSource, normalizeLines_cons, apply_ite (Option.map _)] using read
  rw [escapeBlock_cons triple]
  by_cases source : isSource c = false
  · have control : c.toNat < 0x20 ∧ c ≠ '\t' ∧ c ≠ '\n' ∧ c ≠ '\r' := by
      simp only [isSource, Bool.or_eq_false_iff, decide_eq_false_iff_not, beq_eq_false_iff_ne,
        not_le] at source
      tauto
    simpa [source] using @BlockRead.control _ (escapeBlock s ++ _) control.1 control.2.1
      control.2.2.1 control.2.2.2
  by_cases ret : c = '\r'
  · subst ret
    rcases s with _ | ⟨d, s⟩
    · simpa [escapeBlock, isSource, normalizeLines, push_eq] using BlockRead.crlf (BlockRead.close rest)
    by_cases line : d = '\n'
    · subst line
      have read := BlockRead.crlf (tail s (by rw [← len]; simp only [List.length_cons]; omega))
      simpa [escapeBlock_cons, isSource, normalizeLines, push_eq, apply_ite (Option.map _)] using read
    · have read := BlockRead.cr (escapeBlock_head?_ne s _ line) (tail (d :: s) (by rw [← len]; simp only [List.length_cons]; omega))
      simpa [isSource, normalizeLines, line, push_eq, apply_ite (Option.map _)] using read
  · have printing : 0x20 ≤ c.toNat ∨ c = '\t' ∨ c = '\n' := by
      simp only [isSource, Bool.not_eq_false, Bool.or_eq_true, decide_eq_true_eq, beq_iff_eq]
        at source
      tauto
    have notEscape : (c :: (escapeBlock s ++ '\n' :: '"' :: '"' :: '"' :: rest)).take 4 ≠
        ['\\', '"', '"', '"'] := by
      by_cases slash : c = '\\'
      · subst slash
        intro four
        rw [List.take_succ_cons] at four
        exact escapeBlock_take_three s _ (List.cons.inj four).2
      · simp [slash]
    have notClose := escapeBlock_take_three (c :: s) ('"' :: '"' :: '"' :: rest)
    rw [escapeBlock_cons triple, List.cons_append] at notClose
    have read := BlockRead.char ret printing notClose notEscape
      (tail s (by rw [← len]; simp only [List.length_cons]; omega))
    have kept : isSource c = true := by simpa using source
    simpa [normalizeLines_cons ret, kept, push_eq, apply_ite (Option.map _)] using read

theorem blockRead_description (rest s : List Char) :
    BlockRead ('\n' :: (escapeBlock s ++ '\n' :: '"' :: '"' :: '"' :: rest))
      (if s.all isSource then some ('\n' :: normalizeLines (s ++ ['\n']), rest) else none) := by
  have opening := BlockRead.char (c := '\n') (by simp) (by simp) (by simp) (by simp)
    (blockRead_escapeBlock rest s)
  simpa [push_eq, apply_ite (Option.map _)] using opening

end Schema

end GraphWeave
