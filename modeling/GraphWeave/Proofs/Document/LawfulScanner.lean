import GraphWeave.Proofs.Document.Grammar
import Mathlib

/-!
The document scanner keeps the lexical grammar (`Scanner.grammar`): after blanks it reads each
punctuator, name, number, string and block string as the grammar's laws say.
-/

namespace GraphWeave

namespace Scanner

open Lexical

/-- The scanner as a token reader, from the start of a text. -/
def reader : Reader := fun cs =>
  let read := nextToken cs.length ⟨cs, 0, 1, 0⟩
  (read.1, read.2.rest)

/-- A character the scanner does not skip before a token. -/
def Starts (x : List Char) : Prop :=
  ∀ c ∈ x.head?, c ≠ ' ' ∧ c ≠ '\t' ∧ c ≠ ',' ∧ c ≠ '\n' ∧ c ≠ '\r' ∧ c.toNat ≠ 0xFEFF

theorem skipBlanks_stop {s : Scanner} (stop : Starts s.rest) : s.skipBlanks = s := by
  rw [skipBlanks]
  split <;> simp_all [Starts]

theorem skipBlanks_gap {x : List Char} (start : Starts x) :
    ∀ (gap : List Char) (s : Scanner), Blank gap → s.rest = gap ++ x → s.skipBlanks.rest = x := by
  intro gap
  induction gap with
  | nil =>
    intro s _ here
    rw [skipBlanks_stop (by simpa [here] using start), here, List.nil_append]
  | cons c gap ih =>
    intro s blank here
    have blanks : Blank gap := fun d member => blank d (List.mem_cons_of_mem c member)
    have first : (c = ' ' ∨ c = '\n') ∨ c = ',' := by
      simpa [isBlank] using blank c List.mem_cons_self
    rw [skipBlanks]
    rcases first with (rfl | rfl) | rfl <;> split <;> simp_all

/-! Character classes by code point. -/

theorem toNat_of_isDigit {c : Char} (digit : c.isDigit = true) : 48 ≤ c.toNat ∧ c.toNat ≤ 57 :=
  Char.isDigit_iff_toNat.mp digit

theorem toNat_of_isNameChar {c : Char} (named : isNameChar c = true) :
    (48 ≤ c.toNat ∧ c.toNat ≤ 57) ∨ (65 ≤ c.toNat ∧ c.toNat ≤ 90) ∨
      (97 ≤ c.toNat ∧ c.toNat ≤ 122) ∨ c.toNat = 95 := by
  simp only [isNameChar, Char.isAlphanum, Char.isAlpha, Char.isUpper, Char.isLower, Char.isDigit,
    Bool.or_eq_true, Bool.and_eq_true, decide_eq_true_eq, beq_iff_eq, ge_iff_le,
    UInt32.le_iff_toNat_le] at named
  have bounds : c.toNat = c.val.toNat ∧ ('A'.val.toNat = 65 ∧ 'Z'.val.toNat = 90) ∧
      ('a'.val.toNat = 97 ∧ 'z'.val.toNat = 122) ∧ ('0'.val.toNat = 48 ∧ '9'.val.toNat = 57) :=
    ⟨rfl, ⟨rfl, rfl⟩, ⟨rfl, rfl⟩, rfl, rfl⟩
  rcases named with ((upper | lower) | digit) | rfl
  · omega
  · omega
  · omega
  · exact Or.inr (Or.inr (Or.inr rfl))

theorem isNameChar_of_isNameStart {c : Char} (start : isNameStart c = true) :
    isNameChar c = true := by
  simp only [isNameStart, Bool.or_eq_true, beq_iff_eq] at start
  rcases start with alpha | rfl
  · simp [isNameChar, Char.isAlphanum, alpha]
  · decide

theorem isNameStart_of_isDigit {c : Char} (digit : c.isDigit = true) : isNameStart c = false := by
  have range := toNat_of_isDigit digit
  cases start : isNameStart c
  · rfl
  · have letter : ¬ c.isDigit := by
      simp only [isNameStart, Bool.or_eq_true, beq_iff_eq] at start
      rcases start with alpha | rfl
      · simp only [Char.isAlpha, Char.isUpper, Char.isLower, Bool.or_eq_true, Bool.and_eq_true,
          decide_eq_true_eq, ge_iff_le, UInt32.le_iff_toNat_le] at alpha
        have bounds : c.toNat = c.val.toNat ∧ 'A'.val.toNat = 65 ∧ 'Z'.val.toNat = 90 ∧
            'a'.val.toNat = 97 ∧ 'z'.val.toNat = 122 := ⟨rfl, rfl, rfl, rfl, rfl⟩
        omega
      · decide
    exact absurd digit letter

section Dispatch

variable (fuel : Nat) {s : Scanner} {c : Char} {rest : List Char}

theorem nextToken_eof (here : s.skipBlanks.rest = []) :
    nextToken fuel s = (⟨.eof, "", s.skipBlanks.location⟩, s.skipBlanks) := by
  rw [nextToken.eq_def]
  simp only [here]

theorem nextToken_punct {kind : TokenKind} (here : s.skipBlanks.rest = c :: rest)
    (punct : punctuator? c = some kind) :
    nextToken fuel s = (⟨kind, "", s.skipBlanks.location⟩, s.skipBlanks.advance) := by
  rw [nextToken.eq_def]
  simp only [here, punct]

theorem nextToken_name (here : s.skipBlanks.rest = c :: rest) (start : isNameStart c = true) :
    nextToken fuel s = readName s.skipBlanks s.skipBlanks.advance := by
  have other : punctuator? c = none := by
    unfold punctuator?
    split <;> simp_all [isNameStart]
  have notHash : c ≠ '#' := by rintro rfl; simp [isNameStart] at start
  have notDot : c ≠ '.' := by rintro rfl; simp [isNameStart] at start
  rw [nextToken.eq_def]
  simp only [here, other, beq_iff_eq, notHash, notDot, start, if_false, if_true]

theorem nextToken_number (here : s.skipBlanks.rest = c :: rest) (sign : c = '-' ∨ c.isDigit) :
    nextToken fuel s = readNumber s.skipBlanks := by
  have digitLike : (c == '-' || c.isDigit) = true := by
    rcases sign with rfl | digit <;> simp_all
  have other : punctuator? c = none := by
    unfold punctuator?
    split <;> simp_all
  have notHash : c ≠ '#' := by rintro rfl; simp at digitLike
  have notDot : c ≠ '.' := by rintro rfl; simp at digitLike
  have notName : isNameStart c = false := by
    rcases sign with rfl | digit
    · rfl
    · exact isNameStart_of_isDigit digit
  rw [nextToken.eq_def]
  simp only [here, other, beq_iff_eq, notHash, notDot, notName, digitLike, if_false, if_true,
    Bool.false_eq_true]

theorem nextToken_string (here : s.skipBlanks.rest = '"' :: rest)
    (notBlock : rest.take 2 ≠ ['"', '"']) :
    nextToken fuel s = readString s.skipBlanks [] s.skipBlanks.advance := by
  have other : punctuator? '"' = none := rfl
  have quote : isNameStart '"' = false ∧ ('"' == '-' || '"'.isDigit) = false := by decide
  rw [nextToken.eq_def]
  simp only [here, other, quote, beq_iff_eq, Char.reduceEq, if_false, if_true,
    Bool.false_eq_true]
  split
  · simp at notBlock
  · rfl

theorem nextToken_block (here : s.skipBlanks.rest = '"' :: '"' :: '"' :: rest) :
    nextToken fuel s = readBlockString s.skipBlanks [] (s.skipBlanks.advance 3) := by
  have other : punctuator? '"' = none := rfl
  have quote : isNameStart '"' = false ∧ ('"' == '-' || '"'.isDigit) = false := by decide
  rw [nextToken.eq_def]
  simp only [here, other, quote, beq_iff_eq, Char.reduceEq, if_false, if_true,
    Bool.false_eq_true]

end Dispatch

theorem starts_cons {c : Char} {x : List Char} (printing : 32 < c.toNat) (notComma : c ≠ ',')
    (small : c.toNat < 0xFEFF) : Starts (c :: x) := by
  intro d first
  obtain rfl : c = d := by simpa using first
  refine ⟨?_, ?_, notComma, ?_, ?_, by omega⟩
  all_goals
    rintro rfl
    simp at printing

theorem takeWhile_of_ends {p : Char → Bool} {xs rest : List Char} (all : ∀ x ∈ xs, p x = true)
    (ends : ∀ c ∈ rest.head?, p c = false) : (xs ++ rest).takeWhile p = xs := by
  rw [List.takeWhile_append_of_pos all]
  cases rest with
  | nil => simp
  | cons c more => simp [List.takeWhile_cons_of_neg (by simpa using ends c rfl)]

theorem reader_eq (text : List Char) :
    reader text = ((nextToken text.length ⟨text, 0, 1, 0⟩).1,
      (nextToken text.length ⟨text, 0, 1, 0⟩).2.rest) := rfl

theorem reader_eof {gap : List Char} (blank : Blank gap) : (reader gap).1.kind = .eof := by
  have skipped := skipBlanks_gap (x := []) (by simp [Starts]) gap ⟨gap, 0, 1, 0⟩ blank
    (List.append_nil gap).symm
  rw [reader_eq, nextToken_eof _ skipped]

theorem reader_punct {gap rest : List Char} {c : Char} {kind : TokenKind} (blank : Blank gap)
    (punct : punctuator? c = some kind) : Reads reader (gap ++ c :: rest) kind "" rest := by
  have start : Starts (c :: rest) := by
    unfold punctuator? at punct
    split at punct
    all_goals first
      | (cases punct; exact starts_cons (by decide) (by decide) (by decide))
      | cases punct
  have skipped := skipBlanks_gap start gap ⟨gap ++ c :: rest, 0, 1, 0⟩ blank rfl
  rw [Reads, reader_eq, nextToken_punct _ skipped punct]
  simp [advance, skipped]

theorem readName_of_name {sk : Scanner} {n : String} {rest : List Char}
    (here : sk.rest = n.toList ++ rest) (named : isName n = true) (ends : NameEnds rest) :
    (readName sk sk.advance).1.kind = .name ∧ (readName sk sk.advance).1.value = n ∧
      (readName sk sk.advance).2.rest = rest := by
  obtain ⟨c, cs, chars, -, inner⟩ := isName_iff.mp named
  rw [chars, List.cons_append] at here
  have taken : (cs ++ rest).takeWhile isNameChar = cs := takeWhile_of_ends inner ends
  have value : (c :: (cs ++ rest)).take (1 + cs.length) = c :: cs := by
    rw [Nat.add_comm, List.take_succ_cons, List.take_left' rfl]
  simp only [readName, advance, here, List.drop_one, List.tail_cons, taken]
  refine ⟨trivial, ?_, by simp⟩
  rw [show sk.offset + 1 + cs.length - sk.offset = 1 + cs.length by omega, value, ← chars,
    String.ofList_toList]

theorem reader_name {gap rest : List Char} {n : String} (blank : Blank gap)
    (named : isName n = true) (ends : NameEnds rest) :
    Reads reader (gap ++ n.toList ++ rest) .name n rest := by
  obtain ⟨c, cs, chars, start, -⟩ := isName_iff.mp named
  have range : (65 ≤ c.toNat ∧ c.toNat ≤ 90) ∨ (97 ≤ c.toNat ∧ c.toNat ≤ 122) ∨ c.toNat = 95 := by
    rcases toNat_of_isNameChar (isNameChar_of_isNameStart start) with digit | letter
    · exact absurd start (by rw [isNameStart_of_isDigit (Char.isDigit_iff_toNat.mpr digit)]; simp)
    · exact letter
  have first : Starts (n.toList ++ rest) := by
    rw [chars, List.cons_append]
    refine starts_cons (by omega) ?_ (by omega)
    rintro rfl
    simp at range
  have skipped := skipBlanks_gap first gap ⟨gap ++ n.toList ++ rest, 0, 1, 0⟩ blank
    (List.append_assoc _ _ _)
  have dispatched := nextToken_name (gap ++ n.toList ++ rest).length
    (by rw [skipped, chars, List.cons_append]) start
  rw [Reads, reader_eq, dispatched]
  exact readName_of_name skipped named ends

section Strings

variable (start : Scanner) (acc : List Char) {s : Scanner}

/-! One step of the string reader on each kind of character it meets. -/

theorem readString_quote {rest : List Char} (here : s.rest = '"' :: rest) :
    readString start acc s =
      (⟨.string, String.ofList acc.reverse, start.location⟩,
        { s with rest := rest, offset := s.offset + 1 }) := by
  rw [readString]
  split
  next found => simp [here] at found
  next found => simp [here] at found
  next found => simp [here] at found
  next found => simp [here] at found
  next c more _ _ _ found =>
    rw [here, List.cons.injEq] at found
    obtain ⟨rfl, rfl⟩ := found
    simp [advance, here]

theorem readString_plain {c : Char} {rest : List Char} (here : s.rest = c :: rest)
    (notQuote : c ≠ '"') (notBackslash : c ≠ '\\') (notLine : c ≠ '\n') (notReturn : c ≠ '\r')
    (printing : 0x20 ≤ c.toNat ∨ c = '\t') :
    readString start acc s =
      readString start (c :: acc) { s with rest := rest, offset := s.offset + 1 } := by
  rw [readString]
  split
  next found => simp [here] at found
  next found => simp [here] at found; exact (notBackslash found.1).elim
  next found => simp [here] at found; exact (notBackslash found.1).elim
  next found => simp [here] at found; exact (notBackslash found.1).elim
  next c' more _ _ _ found =>
    rw [here, List.cons.injEq] at found
    obtain ⟨rfl, rfl⟩ := found
    have notControl : (decide (c.toNat < 32) && c != '\t') = false := by
      rcases printing with printing | rfl
      · simp only [Bool.and_eq_false_iff, decide_eq_false_iff_not]
        exact Or.inl (by omega)
      · rfl
    simp [notLine, notReturn, notQuote, notControl]

theorem readString_escape {e : Char} {more : List Char} (here : s.rest = '\\' :: e :: more)
    (notUnicode : e ≠ 'u') :
    readString start acc s = match escapedChar? e with
      | some ch => readString start (ch :: acc) { s with rest := more, offset := s.offset + 2 }
      | none => (s.advance.invalid, s.advance) := by
  rw [readString]
  split
  next found => simp [here] at found
  next found => simp [here] at found; exact (notUnicode found.1).elim
  next e' more' _ found =>
    rw [here] at found
    simp only [List.cons.injEq, true_and] at found
    obtain ⟨rfl, rfl⟩ := found
    rfl
  next found => simp [here] at found
  next c' more' noUnicode noEscape _ found =>
    rw [here, List.cons.injEq] at found
    obtain ⟨rfl, rfl⟩ := found
    exact absurd rfl (noEscape e more rfl)

theorem readString_unicode {a b c d next : Char} {after : List Char}
    (here : s.rest = '\\' :: 'u' :: a :: b :: c :: d :: next :: after) :
    readString start acc s = match unicodeEscape? a b c d with
      | some ch =>
        readString start (ch :: acc) { s with rest := next :: after, offset := s.offset + 6 }
      | none => (s.advance.invalid, s.advance) := by
  rw [readString]
  split
  next found => simp [here] at found
  next a' b' c' d' next' after' found =>
    rw [here] at found
    simp only [List.cons.injEq, true_and] at found
    obtain ⟨rfl, rfl, rfl, rfl, rfl, rfl⟩ := found
    rfl
  next e' more' noUnicode found =>
    rw [here] at found
    simp only [List.cons.injEq, true_and] at found
    obtain ⟨rfl, rfl⟩ := found
    exact absurd rfl (noUnicode a b c d next after rfl)
  next found => simp [here] at found
  next c' more' noUnicode _ _ found =>
    rw [here, List.cons.injEq] at found
    obtain ⟨rfl, rfl⟩ := found
    exact (noUnicode a b c d next after rfl rfl).elim

/-- What reading a string gives, by the grammar's outcome: its value after the characters read
so far, and the rest; or an invalid token. -/
def StringOutcome (sc : Scanner) : Option (List Char × List Char) → Prop
  | some (value, rest) => (readString start acc sc).1.kind = .string ∧
    (readString start acc sc).1.value = String.ofList (acc.reverse ++ value) ∧
    (readString start acc sc).2.rest = rest
  | none => (readString start acc sc).1.kind = .invalid

theorem StringOutcome.push {c : Char} {sc sc' : Scanner} {read : Option (List Char × List Char)}
    (step : readString start acc sc = readString start (c :: acc) sc')
    (outcome : StringOutcome start (c :: acc) sc' read) :
    StringOutcome start acc sc (read.map (Lexical.push c)) := by
  rcases read with _ | ⟨value, rest⟩
  · simpa [StringOutcome, step] using outcome
  · simpa [StringOutcome, step, Lexical.push] using outcome

theorem unicodeEscape?_of_hexCode {a b d e : Char} {u : Nat} (code : hexCode a b d e = some u)
    (plain : ¬ (0xD800 ≤ u ∧ u < 0xE000)) : unicodeEscape? a b d e = some (Char.ofNat u) := by
  unfold hexCode at code
  unfold unicodeEscape?
  split at code
  · rename_i a' b' d' e' ha hb hd he
    cases code
    simp [ha, hb, hd, he, plain]
  · cases code

/-- The scanner reads a string value as the grammar does. -/
theorem readString_of_read {body : List Char} {read : Option (List Char × List Char)}
    (h : StringRead body read) :
    ∀ (acc : List Char) (sc : Scanner), sc.rest = body → StringOutcome start acc sc read := by
  induction h with
  | close rest =>
    intro acc sc here
    simp [StringOutcome, readString_quote start acc here]
  | char notQuote notBackslash notLine notReturn printing _ ih =>
    intro acc sc here
    exact StringOutcome.push start acc
      (readString_plain start acc here notQuote notBackslash notLine notReturn printing) (ih _ _ rfl)
  | @escape e ch body read escaped _ ih =>
    intro acc sc here
    have notUnicode : e ≠ 'u' := by rintro rfl; cases escaped
    refine StringOutcome.push start acc ?_ (ih _ { sc with rest := body, offset := sc.offset + 2 } rfl)
    rw [readString_escape start acc here notUnicode, escaped]
  | @unicode a b d e u body read code plain inner ih =>
    intro acc sc here
    obtain ⟨next, after, rfl⟩ := List.exists_cons_of_ne_nil inner.ne_nil
    refine StringOutcome.push start acc ?_
      (ih _ { sc with rest := next :: after, offset := sc.offset + 6 } rfl)
    rw [readString_unicode start acc here, unicodeEscape?_of_hexCode code plain]
  | @unknown e body unknown notUnicode =>
    intro acc sc here
    simp only [StringOutcome]
    rw [readString_escape start acc here notUnicode, unknown]
    rfl

end Strings

theorem reader_string {gap body value rest : List Char} (blank : Blank gap)
    (notBlock : body.take 2 ≠ ['"', '"']) (read : StringRead body (some (value, rest))) :
    Reads reader (gap ++ '"' :: body) .string (String.ofList value) rest := by
  have skipped := skipBlanks_gap (starts_cons (by decide) (by decide) (by decide)) gap
    ⟨gap ++ '"' :: body, 0, 1, 0⟩ blank rfl
  rw [Reads, reader_eq, nextToken_string _ skipped notBlock]
  simpa [StringOutcome] using
    readString_of_read _ read [] _ (by simp [advance, skipped])

theorem reader_stringFails {gap body : List Char} (blank : Blank gap)
    (notBlock : body.take 2 ≠ ['"', '"']) (read : StringRead body none) :
    (reader (gap ++ '"' :: body)).1.kind = .invalid := by
  have skipped := skipBlanks_gap (starts_cons (by decide) (by decide) (by decide)) gap
    ⟨gap ++ '"' :: body, 0, 1, 0⟩ blank rfl
  rw [reader_eq, nextToken_string _ skipped notBlock]
  exact readString_of_read _ read [] _ (by simp [advance, skipped])

section Blocks

variable (start : Scanner) (acc : List Char) {s : Scanner} {rest : List Char}

/-! One step of the block string reader on each kind of text it meets. -/

theorem readBlockString_close (here : s.rest = '"' :: '"' :: '"' :: rest) :
    (readBlockString start acc s).1.kind = .blockString ∧
      (readBlockString start acc s).1.value = blockStringValue (String.ofList acc.reverse) ∧
      (readBlockString start acc s).2.rest = rest := by
  rw [readBlockString]
  split <;> simp_all

theorem readBlockString_quotes (here : s.rest = '\\' :: '"' :: '"' :: '"' :: rest) :
    ∃ s', s'.rest = rest ∧
      readBlockString start acc s = readBlockString start ('"' :: '"' :: '"' :: acc) s' := by
  rw [readBlockString]
  split
  all_goals simp_all
  exact ⟨_, rfl, rfl⟩

theorem readBlockString_crlf (here : s.rest = '\r' :: '\n' :: rest) :
    ∃ s', s'.rest = rest ∧ readBlockString start acc s = readBlockString start ('\n' :: acc) s' := by
  rw [readBlockString]
  split
  all_goals simp_all
  exact ⟨_, rfl, rfl⟩

theorem readBlockString_cr (here : s.rest = '\r' :: rest) (notLine : rest.head? ≠ some '\n') :
    ∃ s', s'.rest = rest ∧ readBlockString start acc s = readBlockString start ('\n' :: acc) s' := by
  rw [readBlockString]
  split
  next found => simp [here] at found
  next found => simp [here] at found
  next found => simp [here] at found
  next more found =>
    rw [here, List.cons.injEq] at found
    simp [found.2] at notLine
  next more _ found =>
    rw [here, List.cons.injEq] at found
    obtain ⟨-, rfl⟩ := found
    exact ⟨_, rfl, rfl⟩
  next found => simp [here] at found
  next c more _ _ _ _ found =>
    rw [here, List.cons.injEq] at found
    exact absurd found.1.symm (by simp_all)

theorem readBlockString_char {c : Char} (here : s.rest = c :: rest) (notReturn : c ≠ '\r')
    (source : 0x20 ≤ c.toNat ∨ c = '\t' ∨ c = '\n')
    (notClose : (c :: rest).take 3 ≠ ['"', '"', '"'])
    (notQuotes : (c :: rest).take 4 ≠ ['\\', '"', '"', '"']) :
    ∃ s', s'.rest = rest ∧ readBlockString start acc s = readBlockString start (c :: acc) s' := by
  rw [readBlockString]
  split
  next found => simp [here] at found
  next more found =>
    rw [here, List.cons.injEq] at found
    obtain ⟨rfl, rfl⟩ := found
    simp at notClose
  next more found =>
    rw [here, List.cons.injEq] at found
    obtain ⟨rfl, rfl⟩ := found
    simp at notQuotes
  next more found =>
    rw [here, List.cons.injEq] at found
    exact absurd found.1 notReturn
  next more _ found =>
    rw [here, List.cons.injEq] at found
    exact absurd found.1 notReturn
  next more found =>
    rw [here, List.cons.injEq] at found
    obtain ⟨rfl, rfl⟩ := found
    exact ⟨_, rfl, rfl⟩
  next c' more _ _ _ _ found =>
    rw [here, List.cons.injEq] at found
    obtain ⟨rfl, rfl⟩ := found
    have notControl : (decide (c.toNat < 32) && c != '\t') = false := by
      rcases source with printing | rfl | rfl
      · simp only [Bool.and_eq_false_iff, decide_eq_false_iff_not]
        exact Or.inl (by omega)
      · rfl
      · simp_all
    simp only [notControl, Bool.false_eq_true, if_false]
    exact ⟨_, rfl, rfl⟩

theorem readBlockString_control {c : Char} (here : s.rest = c :: rest) (control : c.toNat < 0x20)
    (notTab : c ≠ '\t') (notLine : c ≠ '\n') (notReturn : c ≠ '\r') :
    (readBlockString start acc s).1.kind = .invalid := by
  have printing : c ≠ '"' ∧ c ≠ '\\' := by
    constructor <;> (rintro rfl; simp at control)
  rw [readBlockString]
  split
  next found => simp [here] at found
  next more found =>
    rw [here, List.cons.injEq] at found
    exact absurd found.1 printing.1
  next more found =>
    rw [here, List.cons.injEq] at found
    exact absurd found.1 printing.2
  next more found =>
    rw [here, List.cons.injEq] at found
    exact absurd found.1 notReturn
  next more _ found =>
    rw [here, List.cons.injEq] at found
    exact absurd found.1 notReturn
  next more found =>
    rw [here, List.cons.injEq] at found
    exact absurd found.1 notLine
  next c' more _ _ _ _ found =>
    rw [here, List.cons.injEq] at found
    obtain ⟨rfl, rfl⟩ := found
    have isControl : (decide (c.toNat < 32) && c != '\t') = true := by simp [control, notTab]
    simp only [isControl, if_true]
    rfl

/-- What reading a block string gives, by the grammar's outcome: the value of the raw
characters read so far and the rest, and the text after it; or an invalid token. -/
def BlockOutcome (sc : Scanner) : Option (List Char × List Char) → Prop
  | some (raw, rest) => (readBlockString start acc sc).1.kind = .blockString ∧
    (readBlockString start acc sc).1.value = blockStringValue (String.ofList (acc.reverse ++ raw)) ∧
    (readBlockString start acc sc).2.rest = rest
  | none => (readBlockString start acc sc).1.kind = .invalid

theorem BlockOutcome.pushAll (cs : List Char) {sc sc' : Scanner}
    {read : Option (List Char × List Char)}
    (step : readBlockString start acc sc = readBlockString start (cs.reverse ++ acc) sc')
    (outcome : BlockOutcome start (cs.reverse ++ acc) sc' read) :
    BlockOutcome start acc sc (read.map fun (raw, rest) => (cs ++ raw, rest)) := by
  rcases read with _ | ⟨raw, rest⟩
  · simpa [BlockOutcome, step] using outcome
  · simpa [BlockOutcome, step] using outcome

/-- The scanner reads a block string as the grammar does. -/
theorem readBlockString_of_read {body : List Char} {read : Option (List Char × List Char)}
    (h : BlockRead body read) :
    ∀ (acc : List Char) (sc : Scanner), sc.rest = body → BlockOutcome start acc sc read := by
  induction h with
  | close rest =>
    intro acc sc here
    simpa [BlockOutcome] using readBlockString_close start acc here
  | @quotes body read _ ih =>
    intro acc sc here
    obtain ⟨sc', moved, step⟩ := readBlockString_quotes start acc here
    exact BlockOutcome.pushAll start acc ['"', '"', '"'] step (ih _ sc' moved)
  | @crlf body read _ ih =>
    intro acc sc here
    obtain ⟨sc', moved, step⟩ := readBlockString_crlf start acc here
    simpa [push_eq] using BlockOutcome.pushAll start acc ['\n'] step (ih _ sc' moved)
  | @cr body read notLine _ ih =>
    intro acc sc here
    obtain ⟨sc', moved, step⟩ := readBlockString_cr start acc here notLine
    simpa [push_eq] using BlockOutcome.pushAll start acc ['\n'] step (ih _ sc' moved)
  | @char c body read notReturn source notClose notQuotes _ ih =>
    intro acc sc here
    obtain ⟨sc', moved, step⟩ :=
      readBlockString_char start acc here notReturn source notClose notQuotes
    simpa [push_eq] using BlockOutcome.pushAll start acc [c] step (ih _ sc' moved)
  | control isControl notTab notLine notReturn =>
    intro acc sc here
    exact readBlockString_control start acc here isControl notTab notLine notReturn

end Blocks

theorem reader_block {gap body raw rest : List Char} (blank : Blank gap)
    (read : BlockRead body (some (raw, rest))) :
    Reads reader (gap ++ '"' :: '"' :: '"' :: body) .blockString
      (blockStringValue (String.ofList raw)) rest := by
  have skipped := skipBlanks_gap (starts_cons (by decide) (by decide) (by decide)) gap
    ⟨gap ++ '"' :: '"' :: '"' :: body, 0, 1, 0⟩ blank rfl
  rw [Reads, reader_eq, nextToken_block _ skipped]
  simpa [BlockOutcome] using readBlockString_of_read _ read [] _ (by simp [advance, skipped])

theorem reader_blockFails {gap body : List Char} (blank : Blank gap) (read : BlockRead body none) :
    (reader (gap ++ '"' :: '"' :: '"' :: body)).1.kind = .invalid := by
  have skipped := skipBlanks_gap (starts_cons (by decide) (by decide) (by decide)) gap
    ⟨gap ++ '"' :: '"' :: '"' :: body, 0, 1, 0⟩ blank rfl
  rw [reader_eq, nextToken_block _ skipped]
  exact readBlockString_of_read _ read [] _ (by simp [advance, skipped])

section Numbers

variable {s : Scanner} {y : List Char}

theorem advance_zero (s : Scanner) : s.advance 0 = s := rfl

theorem advance_advance (s : Scanner) (a b : Nat) : (s.advance a).advance b = s.advance (a + b) := by
  simp [advance, Nat.add_assoc]

theorem skipMinus_of (negative : Bool) (here : s.rest = (if negative then ['-'] else []) ++ y)
    (notMinus : y.head? ≠ some '-') : s.skipMinus = s.advance (if negative then 1 else 0) := by
  unfold skipMinus
  cases negative
  · simp only [Bool.false_eq_true, if_false, List.nil_append] at here
    split
    · rename_i more found
      rw [← here, found] at notMinus
      simp at notMinus
    · rfl
  · simp [here]

theorem integerPart?_of {whole : List Char} (here : s.rest = whole ++ y)
    (well : whole = ['0'] ∨ (Digits whole ∧ whole.head? ≠ some '0'))
    (stop : ∀ c ∈ y.head?, c.isDigit = false) : s.integerPart? = some (s.advance whole.length) := by
  unfold integerPart?
  rcases well with rfl | ⟨⟨nonempty, digits⟩, noZero⟩
  · have none : y.takeWhile Char.isDigit = [] := by simpa using takeWhile_of_ends (p := Char.isDigit) (List.forall_mem_nil _) stop
    simp [here, none]
  · split
    · rename_i more found
      rw [here] at found
      obtain ⟨d, ds, rfl⟩ := List.exists_cons_of_ne_nil nonempty
      simp only [List.cons_append, List.cons.injEq] at found
      simp [found.1] at noZero
    · rw [here, takeWhile_of_ends digits stop]
      simp [nonempty]

theorem fractionPart_of {fraction : Option (List Char)}
    (here : s.rest = Numeral.fractionText fraction ++ y) (well : ∀ ds ∈ fraction, Digits ds)
    (stop : ∀ c ∈ y.head?, c.isDigit = false) (noPoint : fraction = none → y.head? ≠ some '.') :
    s.fractionPart = (s.advance (Numeral.fractionText fraction).length, fraction.isSome, false) := by
  unfold fractionPart
  cases fraction with
  | none =>
    simp only [Numeral.fractionText, List.nil_append] at here
    split
    · rename_i more found
      rw [← here, found] at noPoint
      simp at noPoint
    · rfl
  | some ds =>
    obtain ⟨nonempty, digits⟩ := well ds rfl
    simp [Numeral.fractionText, here, takeWhile_of_ends digits stop, nonempty]

theorem exponentPart_of {exponent : Option (Char × Option Char × List Char)}
    (here : s.rest = Numeral.exponentText exponent ++ y)
    (well : ∀ e ∈ exponent, (e.1 = 'e' ∨ e.1 = 'E') ∧ (∀ sign ∈ e.2.1, sign = '+' ∨ sign = '-') ∧
      Digits e.2.2)
    (stop : ∀ c ∈ y.head?, c.isDigit = false)
    (noLetter : exponent = none → ∀ c ∈ y.head?, c ≠ 'e' ∧ c ≠ 'E') (isFloat : Bool) :
    s.exponentPart isFloat =
      (s.advance (Numeral.exponentText exponent).length, isFloat || exponent.isSome, false) := by
  unfold exponentPart
  cases exponent with
  | none =>
    cases y with
    | nil => simp [Numeral.exponentText, here, advance_zero]
    | cons c more =>
      obtain ⟨notSmall, notLarge⟩ := noLetter rfl c rfl
      simp [Numeral.exponentText, here, notSmall, notLarge, advance_zero]
  | some e =>
    obtain ⟨letter, sign, ds⟩ := e
    obtain ⟨isLetter, signed, nonempty, digits⟩ := well _ rfl
    simp only at isLetter signed nonempty digits
    obtain ⟨d, more, rfl⟩ := List.exists_cons_of_ne_nil nonempty
    have taken : (d :: (more ++ y)).takeWhile Char.isDigit = d :: more := by
      simpa using takeWhile_of_ends digits stop
    have digit : d.isDigit = true := digits d List.mem_cons_self
    have leading : d ≠ '+' ∧ d ≠ '-' := by
      constructor <;> (rintro rfl; simp at digit)
    have lettered : (letter == 'e' || letter == 'E') = true := by
      rcases isLetter with rfl | rfl <;> rfl
    rcases sign with _ | sign
    · simp +arith [Numeral.exponentText, here, lettered, leading, taken, advance_advance]
    · rcases signed sign rfl with rfl | rfl
      · simp +arith [Numeral.exponentText, here, lettered, taken, advance_advance]
      · simp +arith [Numeral.exponentText, here, lettered, taken, advance_advance]

/-- The scanner reads a well-formed number, followed by what cannot continue it, as that
number. -/
theorem readNumber_of {sk : Scanner} {n : Numeral} {rest : List Char}
    (here : sk.rest = n.text ++ rest) (well : n.WellFormed) (ends : NumberEnds rest) :
    (readNumber sk).1.kind = n.kind ∧ (readNumber sk).1.value = String.ofList n.text ∧
      (readNumber sk).2.rest = rest := by
  obtain ⟨d, ds, whole, digit⟩ := well.whole_head
  obtain ⟨negative, wholeDigits, fraction, exponent⟩ := n
  simp only at whole well ⊢
  have noLetterDigit : ∀ e ∈ exponent, e.1.isDigit = false := by
    intro e member
    rcases (well.exponent e member).1 with letter | letter <;> simp [letter]
  have afterExponent : ∀ c ∈ rest.head?, c.isDigit = false := fun c first => (ends c first).1
  have afterFraction : ∀ c ∈ (Numeral.exponentText exponent ++ rest).head?, c.isDigit = false := by
    cases exponent with
    | none => simpa [Numeral.exponentText] using afterExponent
    | some e => simpa [Numeral.exponentText] using noLetterDigit e rfl
  have afterWhole : ∀ c ∈ (Numeral.fractionText fraction ++ Numeral.exponentText exponent ++
      rest).head?, c.isDigit = false := by
    cases fraction with
    | none => simpa [Numeral.fractionText] using afterFraction
    | some ds => simp [Numeral.fractionText]
  have noPoint : fraction = none → (Numeral.exponentText exponent ++ rest).head? ≠ some '.' := by
    intro _
    cases exponent with
    | none => simpa [Numeral.exponentText] using fun first => (ends '.' first).2.1 rfl
    | some e =>
      rcases (well.exponent e rfl).1 with letter | letter <;> simp [Numeral.exponentText, letter]
  have noLetter : exponent = none → ∀ c ∈ rest.head?, c ≠ 'e' ∧ c ≠ 'E' := by
    intro _ c first
    have notName := (ends c first).2.2
    constructor <;> (rintro rfl; simp [isNameStart] at notName)
  have sign := skipMinus_of (s := sk) negative
    (y := wholeDigits ++ Numeral.fractionText fraction ++ Numeral.exponentText exponent ++ rest)
    (by simp [here, Numeral.text, List.append_assoc])
    (by rw [whole]; rintro ⟨⟩; simp at digit)
  have integer := integerPart?_of (s := sk.advance (if negative then 1 else 0))
    (y := Numeral.fractionText fraction ++ Numeral.exponentText exponent ++ rest)
    (by cases negative <;> simp [advance, here, Numeral.text, List.append_assoc]) well.whole
    afterWhole
  have point := fractionPart_of (s := (sk.advance (if negative then 1 else 0)).advance
      wholeDigits.length) (y := Numeral.exponentText exponent ++ rest)
    (by cases negative <;> simp [advance, here, Numeral.text, List.append_assoc, List.drop_append])
    well.fraction afterFraction noPoint
  have power := exponentPart_of (s := ((sk.advance (if negative then 1 else 0)).advance
      wholeDigits.length).advance (Numeral.fractionText fraction).length) (y := rest)
    (by cases negative <;> simp [advance, here, Numeral.text, List.append_assoc, List.drop_append])
    well.exponent afterExponent noLetter fraction.isSome
  have length : (if negative then 1 else 0) + wholeDigits.length +
      (Numeral.fractionText fraction).length + (Numeral.exponentText exponent).length =
      (Numeral.text ⟨negative, wholeDigits, fraction, exponent⟩).length := by
    cases negative <;> simp [Numeral.text] <;> omega
  simp only at integer point power
  simp only [readNumber, sign, integer, point, power, Bool.false_eq_true, if_false]
  simp only [advance_advance, length]
  refine ⟨by simp [Numeral.kind], ?_, ?_⟩
  · simp [advance, here, List.take_left']
  · simp [advance, here, List.drop_left']

theorem reader_number {gap rest : List Char} {n : Numeral} (blank : Blank gap) (well : n.WellFormed)
    (ends : NumberEnds rest) :
    Reads reader (gap ++ n.text ++ rest) n.kind (String.ofList n.text) rest := by
  obtain ⟨d, ds, whole, digit⟩ := well.whole_head
  have range := toNat_of_isDigit digit
  obtain ⟨c, more, text, sign⟩ : ∃ c more, n.text ++ rest = c :: more ∧ (c = '-' ∨ c.isDigit) := by
    cases negative : n.negative
    · exact ⟨d, ds ++ Numeral.fractionText n.fraction ++ Numeral.exponentText n.exponent ++ rest,
        by simp [Numeral.text, negative, whole], Or.inr digit⟩
    · exact ⟨'-', n.whole ++ Numeral.fractionText n.fraction ++ Numeral.exponentText n.exponent ++
        rest, by simp [Numeral.text, negative], Or.inl rfl⟩
  have first : Starts (n.text ++ rest) := by
    rw [text]
    rcases sign with rfl | digit
    · exact starts_cons (by decide) (by decide) (by decide)
    · have range := toNat_of_isDigit digit
      refine starts_cons (by omega) ?_ (by omega)
      rintro rfl
      simp at digit
  have skipped := skipBlanks_gap first gap ⟨gap ++ n.text ++ rest, 0, 1, 0⟩ blank
    (List.append_assoc _ _ _)
  rw [Reads, reader_eq, nextToken_number _ (skipped.trans text) sign]
  exact readNumber_of skipped well ends

end Numbers

theorem grammar : Grammar reader where
  eof _ blank := reader_eof blank
  punct _ _ _ _ blank punct := reader_punct blank punct
  name _ _ _ blank named ends := reader_name blank named ends
  number _ _ _ blank well ends := reader_number blank well ends
  string _ _ _ _ blank notBlock read := reader_string blank notBlock read
  stringFails _ _ blank notBlock read := reader_stringFails blank notBlock read
  block _ _ _ _ blank read := reader_block blank read
  blockFails _ _ blank read := reader_blockFails blank read

end Scanner

end GraphWeave
