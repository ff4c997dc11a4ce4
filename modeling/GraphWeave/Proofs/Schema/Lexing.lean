import GraphWeave.Proofs.Schema.Literals
import GraphWeave.Proofs.Document.LawfulScanner
import GraphWeave.Definition.Builder
import Mathlib

/-!
Schema text lexes back into the tokens it was written from. Over any token reader that keeps the
lexical grammar, the tokens of a schema's text are its pieces' tokens in order: names and numbers as
written, strings as their values, and descriptions as the block string value of their lines.
-/

namespace GraphWeave

open Lexical

namespace Schema

namespace Piece

/-- Blanks between tokens. -/
def isBlank : Piece → Bool
  | .space | .newline | .comma => true
  | .punct _ | .name _ | .int _ | .float _ | .string _ | .block _ | .raw _ => false

/-- Pieces next to which any token may stand: punctuators and blanks. -/
def delimits : Piece → Bool
  | .punct _ | .space | .newline | .comma => true
  | .name _ | .int _ | .float _ | .string _ | .block _ | .raw _ => false

/-- What the grammar can read as written: punctuators, GraphQL names, floats written as numerals,
and no value written by its display text. -/
def Lexical : Piece → Prop
  | .punct c => (Scanner.punctuator? c).isSome = true
  | .name n => isName n = true
  | .float t => ∃ n : Numeral, n.WellFormed ∧ n.kind = .float ∧ n.text = t.toList
  | .raw _ => False
  | .int _ | .string _ | .block _ | .space | .newline | .comma => True

/-- Strings and descriptions whose characters the grammar reads back. -/
def readsBack : Piece → Bool
  | .string s => s.toList.all Quoted.readsBack
  | .block s => s.toList.all isSource
  | .punct _ | .name _ | .int _ | .float _ | .raw _ | .space | .newline | .comma => true

/-- The token a piece is read as, by kind and value; blanks have none. -/
def tokens : Piece → List (TokenKind × String)
  | .punct c => (Scanner.punctuator? c).toList.map fun kind => (kind, "")
  | .name n => [(.name, n)]
  | .int n => [(.int, toString n)]
  | .float t => [(.float, t)]
  | .string s => [(.string, s)]
  | .block s =>
    [(.blockString, blockStringValue (String.ofList ('\n' :: normalizeLines (s.toList ++ ['\n']))))]
  | .raw _ | .space | .newline | .comma => []

/-- Pieces whose being read as written is decided by computation: punctuators and names are
checked, floats and display texts are not counted. -/
def isPlain : Piece → Bool
  | .punct c => (Scanner.punctuator? c).isSome
  | .name n => isName n
  | .float _ | .raw _ => false
  | .int _ | .string _ | .block _ | .space | .newline | .comma => true

theorem lexical_of_isPlain {p : Piece} (plain : p.isPlain = true) : p.Lexical := by
  cases p <;> simp_all [isPlain, Lexical]

end Piece

/-- No two tokens stand next to each other: of each two neighbouring pieces one delimits. -/
def Spaced (ps : List Piece) : Prop := ps.IsChain fun a b => a.delimits = true ∨ b.delimits = true

/-- Pieces that may follow any piece: none, or a delimiter first. -/
def Opened (ps : List Piece) : Prop := ∀ p ∈ ps.head?, p.delimits = true

/-- Pieces that any piece may follow: none, or a delimiter last. -/
def Closed (ps : List Piece) : Prop := ∀ p ∈ ps.getLast?, p.delimits = true

theorem toList_write (ps : List Piece) : (write ps).toList = ps.flatMap fun p => p.text.toList := by
  simp [write, String.toList_join, List.flatMap_map]

/-- What may stand right after a token: a blank, a punctuator, or the end of the text. -/
def Follows (rest : List Char) : Prop :=
  ∀ c ∈ rest.head?, Lexical.isBlank c = true ∨ (Scanner.punctuator? c).isSome = true

theorem stops_of_follows {c : Char}
    (stop : Lexical.isBlank c = true ∨ (Scanner.punctuator? c).isSome = true) :
    isNameChar c = false ∧ c.isDigit = false ∧ c ≠ '.' ∧ isNameStart c = false ∧ c ≠ '"' := by
  rcases stop with blank | punct
  · simp only [Lexical.isBlank, Bool.or_eq_true, beq_iff_eq] at blank
    rcases blank with (rfl | rfl) | rfl <;> decide
  · unfold Scanner.punctuator? at punct
    split at punct <;> first | decide | simp at punct

namespace Follows

variable {rest : List Char} (follows : Follows rest)
include follows

theorem nameEnds : NameEnds rest := fun c first => (stops_of_follows (follows c first)).1

theorem numberEnds : NumberEnds rest := fun c first =>
  have stop := stops_of_follows (follows c first)
  ⟨stop.2.1, stop.2.2.1, stop.2.2.2.1⟩

theorem not_quote : rest.head? ≠ some '"' := fun first => (stops_of_follows (follows _ first)).2.2.2.2 rfl

end Follows

theorem punctuator?_valid {c : Char} {kind : TokenKind} (found : Scanner.punctuator? c = some kind) :
    kind ≠ .eof ∧ kind ≠ .invalid := by
  unfold Scanner.punctuator? at found
  split at found <;> first | (cases found; decide) | simp at found

namespace Piece

theorem blank_facts {p : Piece} (blank : p.isBlank = true) :
    Blank p.text.toList ∧ p.readsBack = true ∧ p.tokens = [] := by
  cases p <;> simp_all [isBlank, text, readsBack, tokens, Blank, Lexical.isBlank]

theorem tokens_length {p : Piece} (lexical : p.Lexical) (token : p.isBlank = false) :
    p.tokens.length = 1 := by
  cases p with
  | punct c =>
    obtain ⟨kind, found⟩ := Option.isSome_iff_exists.mp lexical
    simp [tokens, found]
  | raw t => exact lexical.elim
  | _ => simp_all [tokens, isBlank]

theorem follows_text {p : Piece} (lexical : p.Lexical) (delim : p.delimits = true)
    (more : List Char) : Follows (p.text.toList ++ more) := by
  cases p with
  | punct c =>
    intro d first
    obtain rfl : c = d := by simpa [text] using first
    exact Or.inr lexical
  | space | newline | comma =>
    intro d first
    obtain rfl := Option.some.inj (by simpa [text] using first)
    exact Or.inl rfl
  | name | int | float | string | block | raw => exact absurd delim Bool.false_ne_true

end Piece

theorem Spaced.delimits_next {p : Piece} {ps : List Piece} (spaced : Spaced (p :: ps))
    (token : p.delimits = false) : ∀ q ∈ ps.head?, q.delimits = true := by
  intro q first
  obtain ⟨more, rfl⟩ : ∃ more, ps = q :: more := by
    cases ps with
    | nil => simp at first
    | cons r more => exact ⟨more, by simp_all⟩
  simpa [token] using (List.isChain_cons_cons.mp spaced).1

theorem follows_write {ps : List Piece} (lexical : ∀ p ∈ ps, p.Lexical)
    (next : ∀ q ∈ ps.head?, q.delimits = true) {final : List Char} (ending : Blank final) :
    Follows ((write ps).toList ++ final) := by
  cases ps with
  | nil =>
    intro c first
    have found : final.head? = some c := by simpa [write] using first
    exact Or.inl (ending c (List.mem_of_mem_head? found))
  | cons q more =>
    simpa [toList_write, List.append_assoc] using
      Piece.follows_text (lexical q (by simp)) (next q rfl) ((write more).toList ++ final)

theorem encoded_take_two {rest : List Char} (s : List Char) (notQuote : rest.head? ≠ some '"') :
    (s.flatMap (fun c => (Quoted.escapeChar c).toList) ++ '"' :: rest).take 2 ≠ ['"', '"'] := by
  cases s with
  | nil =>
    cases rest with
    | nil => simp
    | cons d more => simpa using notQuote
  | cons c cs =>
    obtain ⟨h, t, written, notQuote⟩ := Quoted.escapeChar_head c
    simp [written, notQuote]

section Reading

variable {next : Reader} (grammar : Grammar next) {gap rest : List Char} (blank : Blank gap)
  (fuel : Nat)
include grammar blank

theorem lexemes_string (s : String) (follows : Follows rest) :
    lexemes next (fuel + 1) (gap ++ (Quoted.encode s).toList ++ rest) =
      if s.toList.all Quoted.readsBack then (lexemes next fuel rest).map ((.string, s) :: ·)
      else none := by
  have read := Quoted.stringRead_escaped s.toList rest
  have notTwo := encoded_take_two s.toList follows.not_quote
  have text : gap ++ (Quoted.encode s).toList ++ rest =
      gap ++ '"' :: (s.toList.flatMap (fun c => (Quoted.escapeChar c).toList) ++ '"' :: rest) := by
    simp [Quoted.toList_encode]
  rw [text]
  split
  · rename_i readable
    rw [if_pos readable] at read
    simpa using lexemes_reads fuel (grammar.string gap _ _ rest blank notTwo read) (by decide)
      (by decide)
  · rename_i unreadable
    rw [if_neg unreadable] at read
    exact lexemes_invalid fuel (grammar.stringFails gap _ blank notTwo read)

theorem lexemes_block (s : String) :
    lexemes next (fuel + 1) (gap ++ (Piece.block s).text.toList ++ rest) =
      if s.toList.all isSource then (lexemes next fuel rest).map ((Piece.block s).tokens ++ ·)
      else none := by
  have read := blockRead_description rest s.toList
  have text : gap ++ (Piece.block s).text.toList ++ rest = gap ++ '"' :: '"' :: '"' ::
      '\n' :: (escapeBlock s.toList ++ '\n' :: '"' :: '"' :: '"' :: rest) := by
    simp [Piece.text]
  rw [text]
  split
  · rename_i readable
    rw [if_pos readable] at read
    simpa [Piece.tokens] using
      lexemes_reads fuel (grammar.block gap _ _ rest blank read) (by decide) (by decide)
  · rename_i unreadable
    rw [if_neg unreadable] at read
    exact lexemes_invalid fuel (grammar.blockFails gap _ blank read)

/-- A token piece after blanks: the reader finds its token, or fails where it does not read
back. -/
theorem lexemes_piece {p : Piece} (lexical : p.Lexical) (token : p.isBlank = false)
    (follows : p.delimits = false → Follows rest) :
    lexemes next (fuel + 1) (gap ++ p.text.toList ++ rest) =
      if p.readsBack then (lexemes next fuel rest).map (p.tokens ++ ·) else none := by
  cases p with
  | punct c =>
    obtain ⟨kind, found⟩ := Option.isSome_iff_exists.mp lexical
    have reads := grammar.punct gap c kind rest blank found
    simpa [Piece.text, Piece.tokens, Piece.readsBack, found] using
      lexemes_reads fuel reads (punctuator?_valid found).1 (punctuator?_valid found).2
  | name n =>
    have reads := grammar.name gap n rest blank lexical (follows rfl).nameEnds
    simpa [Piece.text, Piece.tokens, Piece.readsBack] using
      lexemes_reads fuel reads (by decide) (by decide)
  | int n =>
    have reads := grammar.number gap (Numeral.ofInt n) rest blank (Numeral.ofInt_wellFormed n)
      (follows rfl).numberEnds
    rw [Numeral.ofInt_text, Numeral.ofInt_kind] at reads
    simpa [Piece.text, Piece.tokens, Piece.readsBack] using
      lexemes_reads fuel reads (by decide) (by decide)
  | float t =>
    obtain ⟨n, well, kind, text⟩ := lexical
    have reads := grammar.number gap n rest blank well (follows rfl).numberEnds
    rw [kind, text] at reads
    simpa [Piece.text, Piece.tokens, Piece.readsBack] using
      lexemes_reads fuel reads (by decide) (by decide)
  | string s =>
    simpa [Piece.text, Piece.tokens, Piece.readsBack] using
      lexemes_string grammar blank fuel s (follows rfl)
  | block s => simpa [Piece.readsBack] using lexemes_block grammar blank fuel s
  | raw t => exact lexical.elim
  | space | newline | comma => simp [Piece.isBlank] at token

/-- Blanks, then spaced pieces, then blanks: the reader finds the pieces' tokens one after
another, or fails at the first string or description that does not read back. -/
theorem lexemes_write {ps : List Piece} (lexical : ∀ p ∈ ps, p.Lexical) (spaced : Spaced ps)
    {final : List Char} (ending : Blank final) {fuel : Nat}
    (enough : (ps.flatMap Piece.tokens).length < fuel) :
    lexemes next fuel (gap ++ (write ps).toList ++ final) =
      if ps.all Piece.readsBack then some (ps.flatMap Piece.tokens) else none := by
  induction ps generalizing gap fuel with
  | nil =>
    obtain ⟨fuel, rfl⟩ := Nat.exists_eq_add_of_lt enough
    simpa [write] using lexemes_eof fuel (grammar.eof _ (blank.append ending))
  | cons p ps ih =>
    have rest_lexical : ∀ q ∈ ps, q.Lexical := fun q mem => lexical q (by simp [mem])
    have rest_spaced : Spaced ps := spaced.tail
    have text : gap ++ (write (p :: ps)).toList ++ final =
        gap ++ p.text.toList ++ ((write ps).toList ++ final) := by
      simp [toList_write]
    rw [text]
    rw [List.flatMap_cons, List.length_append] at enough
    cases token : p.isBlank
    · have one := Piece.tokens_length (lexical p (by simp)) token
      obtain ⟨fuel, rfl⟩ : ∃ f, fuel = f + 1 := ⟨fuel - 1, by omega⟩
      have follows : p.delimits = false → Follows ((write ps).toList ++ final) := fun notDelim =>
        follows_write rest_lexical (spaced.delimits_next notDelim) ending
      rw [lexemes_piece grammar blank fuel (lexical p (by simp)) token follows,
        ← List.nil_append ((write ps).toList ++ final), ← List.append_assoc,
        ih Blank.nil rest_lexical rest_spaced (by omega)]
      by_cases reads : p.readsBack <;> simp [reads]
    · obtain ⟨gapBlank, reads, none⟩ := Piece.blank_facts token
      rw [← List.append_assoc, ih (blank.append gapBlank) rest_lexical rest_spaced
        (by simpa [none] using enough)]
      simp [reads, none]

end Reading

section Spacing

/-! How spacing composes: a joint between two lists is safe when the left one ends with a
delimiter or the right one starts with one. -/

@[simp] theorem spaced_nil : Spaced [] := List.isChain_nil

@[simp] theorem spaced_cons {p : Piece} {l : List Piece} :
    Spaced (p :: l) ↔ Spaced l ∧ (p.delimits = true ∨ Opened l) := by
  cases l with
  | nil => simp [Spaced, Opened]
  | cons q l => simp [Spaced, Opened, List.isChain_cons_cons, and_comm]

@[simp] theorem spaced_append {a b : List Piece} :
    Spaced (a ++ b) ↔ Spaced a ∧ Spaced b ∧ (Closed a ∨ Opened b) := by
  unfold Spaced Closed Opened
  rw [List.isChain_append]
  cases last : a.getLast? <;> cases first : b.head? <;> simp

@[simp] theorem opened_nil : Opened [] := by simp [Opened]

@[simp] theorem opened_cons {p : Piece} {l : List Piece} : Opened (p :: l) ↔ p.delimits = true := by
  simp [Opened]

@[simp] theorem opened_append {a b : List Piece} : Opened (a ++ b) ↔ Opened a ∧ (a = [] → Opened b) := by
  cases a <;> simp [Opened]

@[simp] theorem closed_nil : Closed [] := by simp [Closed]

@[simp] theorem closed_cons {p : Piece} {l : List Piece} :
    Closed (p :: l) ↔ Closed l ∧ (l = [] → p.delimits = true) := by
  cases l with
  | nil => simp [Closed]
  | cons q l => simp [Closed, List.getLast?_cons_cons]

@[simp] theorem closed_append {a b : List Piece} : Closed (a ++ b) ↔ Closed b ∧ (b = [] → Closed a) := by
  cases b using List.reverseRecOn <;> simp [Closed, ← List.append_assoc]

theorem Spaced.of_delimits {l : List Piece} (all : ∀ p ∈ l, p.delimits = true) : Spaced l := by
  induction l with
  | nil => exact spaced_nil
  | cons p l ih => simpa [all p (by simp)] using ih fun q mem => all q (by simp [mem])

theorem Spaced.flatten {ls : List (List Piece)} (each : ∀ l ∈ ls, Spaced l ∧ Closed l) :
    Spaced ls.flatten ∧ Closed ls.flatten := by
  induction ls with
  | nil => simp
  | cons l ls ih =>
    obtain ⟨spaced, closed⟩ := each l (by simp)
    obtain ⟨rest, restClosed⟩ := ih fun l' mem => each l' (by simp [mem])
    simp only [List.flatten_cons, spaced_append, closed_append]
    exact ⟨⟨spaced, rest, Or.inl closed⟩, restClosed, fun _ => closed⟩

@[simp] theorem Spaced.flatten_map {α : Type} {f : α → List Piece}
    (written : ∀ x, Spaced (f x) ∧ Closed (f x)) (xs : List α) :
    Spaced (xs.map f).flatten ∧ Closed (xs.map f).flatten :=
  Spaced.flatten (by simpa using fun x _ => written x)

/-- Items joined by a separator of delimiters are spaced when each item is. -/
theorem Spaced.intercalate {sep : List Piece} (delims : ∀ p ∈ sep, p.delimits = true)
    (nonempty : sep ≠ []) {items : List (List Piece)} (each : ∀ l ∈ items, Spaced l) :
    Spaced (sep.intercalate items) := by
  obtain ⟨d, ds, rfl⟩ := List.exists_cons_of_ne_nil nonempty
  have closed : Closed (d :: ds) := fun p last => delims p (List.mem_of_getLast? last)
  induction items with
  | nil => simp
  | cons l ls ih =>
    cases ls with
    | nil => simpa using each l (by simp)
    | cons l' ls =>
      rw [List.intercalate_cons_cons, List.append_assoc, spaced_append, spaced_append]
      refine ⟨each l (by simp), ⟨Spaced.of_delimits delims, ih fun l mem => each l (by simp_all),
        Or.inl closed⟩, Or.inr ?_⟩
      simpa using delims d (by simp)

@[simp] theorem listed_spaced {items : List (List Piece)} (each : ∀ l ∈ items, Spaced l) :
    Spaced (listed items) :=
  Spaced.intercalate (by simp [Piece.delimits]) (by simp) each

@[simp] theorem separated_spaced (sep : Char) (names : List String) :
    Spaced (separated sep names) :=
  Spaced.intercalate (by simp [Piece.delimits]) (by simp) (by simp)

@[simp] theorem typePieces_spaced : (t : TypeRef) → Spaced (typePieces t)
  | .named _ => by simp [typePieces, Piece.delimits]
  | .list t => by simp [typePieces, typePieces_spaced t, Piece.delimits]
  | .nonNull t => by simp [typePieces, typePieces_spaced t, Piece.delimits]

mutual

@[simp] theorem valuePieces_spaced : (v : Value) → Spaced (valuePieces v)
  | .list items => by
    simp only [valuePieces, List.cons_append, spaced_cons, spaced_append]
    exact ⟨⟨listed_spaced (itemPieces_spaced items), by simp, by simp [Piece.delimits]⟩, by simp [Piece.delimits]⟩
  | .map entries => by
    simp only [valuePieces, List.cons_append, spaced_cons, spaced_append]
    refine ⟨⟨listed_spaced ?_, by simp, by simp [Piece.delimits]⟩, by simp [Piece.delimits]⟩
    simp only [List.mem_map]
    rintro _ ⟨⟨k, v⟩, mem, rfl⟩
    simpa [Piece.delimits] using entryPieces_spaced entries (k, v) (List.mem_mergeSort.mp mem)
  | .null | .bool _ | .int _ _ | .uint _ _ | .double _ | .single _ | .str _ | .id _
  | .enumLiteral _ | .duration _ | .ref _ | .nilRef _ | .record _ _ => by simp [valuePieces, Piece.delimits]

theorem itemPieces_spaced : (vs : List Value) → ∀ l ∈ itemPieces vs, Spaced l
  | [] => by simp [itemPieces]
  | v :: rest => by
    simp only [itemPieces, List.mem_cons]
    rintro l (rfl | mem)
    exacts [valuePieces_spaced v, itemPieces_spaced rest l mem]

theorem entryPieces_spaced : (es : List (String × Value)) → ∀ e ∈ entryPieces es, Spaced e.2
  | [] => by simp [entryPieces]
  | (k, v) :: rest => by
    simp only [entryPieces, List.mem_cons]
    rintro e (rfl | mem)
    exacts [valuePieces_spaced v, entryPieces_spaced rest e mem]

end

@[simp] theorem descriptionPieces_spaced (d : String) :
    Spaced (descriptionPieces d) ∧ Closed (descriptionPieces d) := by
  unfold descriptionPieces
  split <;> simp [Piece.delimits]

@[simp] theorem deprecationPieces_spaced (reason : Option String) :
    Spaced (deprecationPieces reason) ∧ Opened (deprecationPieces reason) := by
  unfold deprecationPieces
  split <;> simp [Piece.delimits]

@[simp] theorem InputValue.pieces_spaced (iv : InputValue) : Spaced iv.pieces := by
  unfold InputValue.pieces
  split <;> simp [Piece.delimits]

@[simp] theorem argumentPieces_spaced (args : List InputValue) :
    Spaced (argumentPieces args) ∧ Opened (argumentPieces args) ∧ Closed (argumentPieces args) := by
  unfold argumentPieces
  split <;> simp [Piece.delimits]

@[simp] theorem Field.pieces_spaced (f : Field) : Spaced f.pieces ∧ Closed f.pieces := by
  simp [Field.pieces, Piece.delimits]

@[simp] theorem implementsPieces_spaced (interfaces : List String) :
    Spaced (implementsPieces interfaces) ∧ Opened (implementsPieces interfaces) := by
  unfold implementsPieces
  split <;> simp [Piece.delimits]

@[simp] theorem membersPieces_spaced {lines : List (List Piece)}
    (each : ∀ l ∈ lines, Spaced l ∧ Closed l) :
    Spaced (membersPieces lines) ∧ Opened (membersPieces lines) ∧ Closed (membersPieces lines) := by
  obtain ⟨spaced, closed⟩ := Spaced.flatten each
  simp [membersPieces, spaced, closed, Piece.delimits]

@[simp] theorem membersPieces_ne_nil (lines : List (List Piece)) : membersPieces lines ≠ [] := by
  simp [membersPieces]

@[simp] theorem NamedType.pieces_spaced (t : NamedType) : Spaced t.pieces ∧ Closed t.pieces := by
  unfold NamedType.pieces
  split
  case h_1 => split <;> simp [Piece.delimits]
  case h_3 => split <;> simp [Piece.delimits]
  all_goals simp [Piece.delimits]

@[simp] theorem Directive.pieces_spaced (d : Directive) : Spaced d.pieces ∧ Closed d.pieces := by
  unfold Directive.pieces
  split <;> simp [Piece.delimits]

@[simp] theorem rootPieces_spaced (s : Schema) : Spaced (rootPieces s) ∧ Closed (rootPieces s) := by
  have line : ∀ operation name : String,
      Spaced (if name = "" then [] else [.space, .space, .name operation, .punct ':', .space,
        .name name, .newline]) ∧
      Opened (if name = "" then [] else [.space, .space, .name operation, .punct ':', .space,
        .name name, .newline]) ∧
      Closed (if name = "" then [] else [.space, .space, .name operation, .punct ':', .space,
        .name name, .newline]) := by
    intro operation name
    split <;> simp [Piece.delimits]
  unfold rootPieces
  split <;> simp [line, Piece.delimits]

theorem pieces_spaced (s : Schema) : Spaced s.pieces := by
  simp [pieces]

end Spacing

section Trimming

/-- Every piece but a newline ends with a character other than a line feed. -/
theorem Piece.text_concat {p : Piece} (lexical : p.Lexical) (notNewline : p ≠ .newline) :
    ∃ t c, p.text.toList = t ++ [c] ∧ c ≠ '\n' := by
  cases p with
  | punct c =>
    refine ⟨[], c, by simp [text], ?_⟩
    rintro rfl
    exact absurd (show (Scanner.punctuator? '\n').isSome = true from lexical) (by decide)
  | name n =>
    obtain ⟨c, cs, chars, start, rest⟩ := isName_iff.mp lexical
    obtain ⟨t, d, last⟩ := (List.eq_nil_or_concat' (c :: cs)).resolve_left (by simp)
    have named : isNameChar d = true := by
      have mem : d ∈ c :: cs := by simp [last]
      rcases List.mem_cons.mp mem with rfl | inner
      exacts [Scanner.isNameChar_of_isNameStart start, rest d inner]
    refine ⟨t, d, by simp [text, chars, last], ?_⟩
    rintro rfl
    exact absurd named (by decide)
  | int n =>
    obtain ⟨t, c, eq, digit⟩ := (Numeral.ofInt_wellFormed n).text_concat
    refine ⟨t, c, by rw [text, ← Numeral.ofInt_text, eq], ?_⟩
    rintro rfl
    exact absurd digit (by decide)
  | float t =>
    obtain ⟨n, well, -, written⟩ := lexical
    obtain ⟨t', c, eq, digit⟩ := well.text_concat
    refine ⟨t', c, by simp [text, ← written, eq], ?_⟩
    rintro rfl
    exact absurd digit (by decide)
  | string s =>
    exact ⟨'"' :: s.toList.flatMap (fun c => (Quoted.escapeChar c).toList), '"',
      by simp [text, Quoted.toList_encode], by decide⟩
  | block s =>
    exact ⟨'"' :: '"' :: '"' :: '\n' :: (escapeBlock s.toList ++ ['\n', '"', '"']), '"',
      by simp [text], by decide⟩
  | raw t => exact lexical.elim
  | space => exact ⟨[], ' ', by simp [text], by decide⟩
  | newline => exact absurd rfl notNewline
  | comma => exact ⟨[], ',', by simp [text], by decide⟩

theorem toList_trimNewlines (text : String) :
    (trimNewlines text).toList = text.toList.rdropWhile (· == '\n') := by
  simp only [trimNewlines, String.toList_ofList]
  rfl

/-- Trimming the text's trailing line feeds drops its trailing newline pieces and nothing
else. -/
theorem trimNewlines_write {ps : List Piece} (lexical : ∀ p ∈ ps, p.Lexical) :
    (trimNewlines (write ps)).toList = (write (ps.rdropWhile (· == .newline))).toList := by
  rw [toList_trimNewlines]
  induction ps using List.reverseRecOn with
  | nil => rfl
  | append_singleton init p ih =>
    have initLexical : ∀ q ∈ init, q.Lexical := fun q mem => lexical q (by simp [mem])
    by_cases line : p = .newline
    · subst line
      have text : (write (init ++ [.newline])).toList = (write init).toList ++ ['\n'] := by
        simp [toList_write, Piece.text]
      rw [text, List.rdropWhile_concat_pos _ _ _ (by decide),
        List.rdropWhile_concat_pos _ _ _ (by decide), ih initLexical]
    · obtain ⟨t, c, written, notLine⟩ := Piece.text_concat (lexical p (by simp)) line
      have text : (write (init ++ [p])).toList = ((write init).toList ++ t) ++ [c] := by
        simp [toList_write, written]
      rw [text, List.rdropWhile_concat_neg _ _ _ (by simpa using notLine),
        List.rdropWhile_concat_neg _ _ _ (by simpa using line)]
      simp [toList_write, written]

theorem Piece.tokens_length_le_text {p : Piece} (lexical : p.Lexical) :
    p.tokens.length ≤ p.text.toList.length := by
  by_cases line : p = .newline
  · subst line
    simp [tokens]
  · obtain ⟨t, c, written, -⟩ := text_concat lexical line
    have single : p.tokens.length ≤ 1 := by
      cases p with
      | punct c => cases Scanner.punctuator? c <;> simp [tokens]
      | _ => simp [tokens]
    rw [written, List.length_append, List.length_singleton]
    omega

theorem tokens_length_le {ps : List Piece} (lexical : ∀ p ∈ ps, p.Lexical) :
    (ps.flatMap Piece.tokens).length ≤ (write ps).toList.length := by
  rw [toList_write]
  induction ps with
  | nil => simp
  | cons p ps ih =>
    have here := Piece.tokens_length_le_text (lexical p (by simp))
    have rest := ih fun q mem => lexical q (by simp [mem])
    simp only [List.flatMap_cons, List.length_append]
    omega

end Trimming

end Schema

end GraphWeave
