import GraphWeave.Document.Token
import Mathlib

/-!
The lexical grammar of GraphQL as far as schema text uses it, stated as laws of a token reader
(`Lexical.Grammar`), and the tokens such a reader finds in a text (`Lexical.lex`).
-/

namespace GraphWeave

/-- Whether a text is a GraphQL name: a letter or underscore, then letters, digits and
underscores. -/
def isName (s : String) : Bool :=
  match s.toList with
  | c :: cs => isNameStart c && cs.all isNameChar
  | [] => false

theorem isName_iff {s : String} :
    isName s = true ↔ ∃ c cs, s.toList = c :: cs ∧ isNameStart c = true ∧
      ∀ d ∈ cs, isNameChar d = true := by
  unfold isName
  split
  case h_1 c cs chars => simp [chars]
  case h_2 chars => simp [chars]

namespace Lexical

/-- The blanks schema text puts between tokens. -/
def isBlank (c : Char) : Bool := c == ' ' || c == '\n' || c == ','

/-- Text made of blanks only. -/
def Blank (gap : List Char) : Prop := ∀ c ∈ gap, isBlank c = true

theorem Blank.nil : Blank [] := fun _ absent => absurd absent List.not_mem_nil

theorem Blank.append {gap gap' : List Char} (first : Blank gap) (second : Blank gap') :
    Blank (gap ++ gap') := by
  intro c mem
  rcases List.mem_append.mp mem with inFirst | inSecond
  exacts [first c inFirst, second c inSecond]

/-- A token reader: the next token of a text, and the text after it. -/
abbrev Reader := List Char → Token × List Char

/-- The reader finds a token of this kind and value, and leaves `rest`. -/
def Reads (next : Reader) (text : List Char) (kind : TokenKind) (value : String)
    (rest : List Char) : Prop :=
  (next text).1.kind = kind ∧ (next text).1.value = value ∧ (next text).2 = rest

/-- What follows a name does not continue it. -/
def NameEnds (rest : List Char) : Prop := ∀ c ∈ rest.head?, isNameChar c = false

/-- What follows a number does not continue it. -/
def NumberEnds (rest : List Char) : Prop :=
  ∀ c ∈ rest.head?, c.isDigit = false ∧ c ≠ '.' ∧ isNameStart c = false

/-- Decimal digits, at least one. -/
def Digits (ds : List Char) : Prop := ds ≠ [] ∧ ∀ d ∈ ds, d.isDigit = true

/-- A number as the grammar spells it: an optional minus, the integer digits, an optional
fraction, and an optional exponent with its letter, its optional sign and its digits. -/
structure Numeral where
  negative : Bool
  whole : List Char
  fraction : Option (List Char) := none
  exponent : Option (Char × Option Char × List Char) := none

namespace Numeral

/-- The grammar's conditions on a number: a lone zero or digits without a leading zero, digits
after the point, and an exponent `e` or `E`, an optional sign and digits. -/
structure WellFormed (n : Numeral) : Prop where
  whole : n.whole = ['0'] ∨ (Digits n.whole ∧ n.whole.head? ≠ some '0')
  fraction : ∀ ds ∈ n.fraction, Digits ds
  exponent : ∀ e ∈ n.exponent, (e.1 = 'e' ∨ e.1 = 'E') ∧ (∀ sign ∈ e.2.1, sign = '+' ∨ sign = '-') ∧
    Digits e.2.2

/-- The point and digits of the fraction, or nothing. -/
def fractionText : Option (List Char) → List Char
  | some ds => '.' :: ds
  | none => []

/-- The letter, sign and digits of the exponent, or nothing. -/
def exponentText : Option (Char × Option Char × List Char) → List Char
  | some (letter, sign, ds) => letter :: sign.toList ++ ds
  | none => []

def text (n : Numeral) : List Char :=
  (if n.negative then ['-'] else []) ++ n.whole ++ fractionText n.fraction ++
    exponentText n.exponent

/-- A number with a fraction or an exponent is a float, any other an integer. -/
def kind (n : Numeral) : TokenKind :=
  if n.fraction.isSome || n.exponent.isSome then .float else .int

theorem WellFormed.whole_head {n : Numeral} (well : n.WellFormed) :
    ∃ d ds, n.whole = d :: ds ∧ d.isDigit = true := by
  rcases well.whole with zero | ⟨⟨nonempty, digits⟩, -⟩
  · exact ⟨'0', [], zero, rfl⟩
  · obtain ⟨d, ds, whole⟩ := List.exists_cons_of_ne_nil nonempty
    exact ⟨d, ds, whole, digits d (by simp [whole])⟩

end Numeral

/-- The value of four hexadecimal digits. -/
def hexCode (a b d e : Char) : Option Nat :=
  match Scanner.hexValue? a, Scanner.hexValue? b, Scanner.hexValue? d, Scanner.hexValue? e with
  | some a, some b, some d, some e => some (((a * 16 + b) * 16 + d) * 16 + e)
  | _, _, _, _ => none

/-- Adds a character in front of the value read. -/
def push (c : Char) : List Char × List Char → List Char × List Char
  | (value, rest) => (c :: value, rest)

theorem push_eq (c : Char) : push c = fun read => (c :: read.1, read.2) := by
  funext ⟨value, rest⟩
  rfl

/-- A string value after its opening quote, by the grammar: each character stands for itself,
or an escape for the character it names, up to the closing quote. The outcome is the value and
the text after the closing quote, or `none` at an escape the grammar does not have. -/
inductive StringRead : List Char → Option (List Char × List Char) → Prop
  | close (rest : List Char) : StringRead ('"' :: rest) (some ([], rest))
  | char {c : Char} {body : List Char} {read : Option (List Char × List Char)} :
      c ≠ '"' → c ≠ '\\' → c ≠ '\n' → c ≠ '\r' → (0x20 ≤ c.toNat ∨ c = '\t') →
      StringRead body read → StringRead (c :: body) (read.map (push c))
  | escape {e ch : Char} {body : List Char} {read : Option (List Char × List Char)} :
      Scanner.escapedChar? e = some ch → StringRead body read →
      StringRead ('\\' :: e :: body) (read.map (push ch))
  | unicode {a b d e : Char} {u : Nat} {body : List Char} {read : Option (List Char × List Char)} :
      hexCode a b d e = some u → ¬ (0xD800 ≤ u ∧ u < 0xE000) → StringRead body read →
      StringRead ('\\' :: 'u' :: a :: b :: d :: e :: body) (read.map (push (Char.ofNat u)))
  | unknown {e : Char} {body : List Char} :
      Scanner.escapedChar? e = none → e ≠ 'u' → StringRead ('\\' :: e :: body) none

theorem StringRead.ne_nil {body : List Char} {read : Option (List Char × List Char)}
    (h : StringRead body read) : body ≠ [] := by
  cases h <;> simp

/-- A block string after its opening quotes, by the grammar: source characters, with `\"""`
standing for three quotes and each line end read as a line feed, up to the closing quotes. The
outcome is the raw value and the text after the closing quotes, or `none` at a control
character. -/
inductive BlockRead : List Char → Option (List Char × List Char) → Prop
  | close (rest : List Char) : BlockRead ('"' :: '"' :: '"' :: rest) (some ([], rest))
  | quotes {body : List Char} {read : Option (List Char × List Char)} :
      BlockRead body read →
      BlockRead ('\\' :: '"' :: '"' :: '"' :: body) (read.map fun (v, rest) => ('"' :: '"' :: '"' :: v, rest))
  | crlf {body : List Char} {read : Option (List Char × List Char)} :
      BlockRead body read → BlockRead ('\r' :: '\n' :: body) (read.map (push '\n'))
  | cr {body : List Char} {read : Option (List Char × List Char)} :
      body.head? ≠ some '\n' → BlockRead body read → BlockRead ('\r' :: body) (read.map (push '\n'))
  | char {c : Char} {body : List Char} {read : Option (List Char × List Char)} :
      c ≠ '\r' → (0x20 ≤ c.toNat ∨ c = '\t' ∨ c = '\n') →
      (c :: body).take 3 ≠ ['"', '"', '"'] → (c :: body).take 4 ≠ ['\\', '"', '"', '"'] →
      BlockRead body read → BlockRead (c :: body) (read.map (push c))
  | control {c : Char} {body : List Char} :
      c.toNat < 0x20 → c ≠ '\t' → c ≠ '\n' → c ≠ '\r' → BlockRead (c :: body) none

/-- The laws of a token reader that reads GraphQL's lexical grammar, for tokens after blanks. -/
structure Grammar (next : Reader) : Prop where
  eof : ∀ gap, Blank gap → (next gap).1.kind = .eof
  punct : ∀ gap c kind rest, Blank gap → Scanner.punctuator? c = some kind →
    Reads next (gap ++ c :: rest) kind "" rest
  name : ∀ gap n rest, Blank gap → isName n = true → NameEnds rest →
    Reads next (gap ++ n.toList ++ rest) .name n rest
  number : ∀ gap (n : Numeral) rest, Blank gap → n.WellFormed → NumberEnds rest →
    Reads next (gap ++ n.text ++ rest) n.kind (String.ofList n.text) rest
  string : ∀ gap body value rest, Blank gap → body.take 2 ≠ ['"', '"'] →
    StringRead body (some (value, rest)) →
    Reads next (gap ++ '"' :: body) .string (String.ofList value) rest
  stringFails : ∀ gap body, Blank gap → body.take 2 ≠ ['"', '"'] → StringRead body none →
    (next (gap ++ '"' :: body)).1.kind = .invalid
  block : ∀ gap body raw rest, Blank gap → BlockRead body (some (raw, rest)) →
    Reads next (gap ++ '"' :: '"' :: '"' :: body) .blockString
      (blockStringValue (String.ofList raw)) rest
  blockFails : ∀ gap body, Blank gap → BlockRead body none →
    (next (gap ++ '"' :: '"' :: '"' :: body)).1.kind = .invalid

/-- The kinds and values of the tokens a reader finds, up to the end of the text, in at most
`fuel` tokens; `none` at an invalid token or when the tokens outnumber the fuel. -/
def lexemes (next : Reader) : Nat → List Char → Option (List (TokenKind × String))
  | 0, _ => none
  | fuel + 1, text =>
    match (next text).1.kind with
    | .eof => some []
    | .invalid => none
    | kind => (lexemes next fuel (next text).2).map ((kind, (next text).1.value) :: ·)

/-- The tokens of a text, each taking at least one character. -/
def lex (next : Reader) (text : List Char) : Option (List (TokenKind × String)) :=
  lexemes next (text.length + 1) text

section Steps

variable {next : Reader} {text : List Char} (fuel : Nat)

theorem lexemes_eof (eof : (next text).1.kind = .eof) : lexemes next (fuel + 1) text = some [] := by
  simp [lexemes, eof]

theorem lexemes_invalid (invalid : (next text).1.kind = .invalid) :
    lexemes next (fuel + 1) text = none := by
  simp [lexemes, invalid]

theorem lexemes_reads {kind : TokenKind} {value : String} {rest : List Char}
    (reads : Reads next text kind value rest) (notEof : kind ≠ .eof) (valid : kind ≠ .invalid) :
    lexemes next (fuel + 1) text = (lexemes next fuel rest).map ((kind, value) :: ·) := by
  obtain ⟨found, valued, after⟩ := reads
  rw [lexemes]
  split <;> simp_all

end Steps

end Lexical

end GraphWeave
