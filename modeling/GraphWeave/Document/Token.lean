import GraphWeave.Document.Basic
import GraphWeave.Text.Quoted

/-!
Tokens of request documents.
-/

namespace GraphWeave

/-- Kinds of tokens. -/
inductive TokenKind where
  | invalid
  | eof
  | bang
  | dollar
  | amp
  | parenL
  | parenR
  | spread
  | colon
  | equals
  | at
  | bracketL
  | bracketR
  | braceL
  | braceR
  | pipe
  | name
  | int
  | float
  | string
  | blockString
deriving DecidableEq, Repr, Inhabited

/-- How a token kind is named in messages. -/
def TokenKind.describe : TokenKind → String
  | .invalid => "<Invalid>"
  | .eof => "<EOF>"
  | .bang => "!"
  | .dollar => "$"
  | .amp => "&"
  | .parenL => "("
  | .parenR => ")"
  | .spread => "..."
  | .colon => ":"
  | .equals => "="
  | .at => "@"
  | .bracketL => "["
  | .bracketR => "]"
  | .braceL => "\x7b"
  | .braceR => "\x7d"
  | .pipe => "|"
  | .name => "Name"
  | .int => "Int"
  | .float => "Float"
  | .string => "String"
  | .blockString => "BlockString"

/-- A token with its text (for names, numbers and strings) and where it starts. -/
structure Token where
  kind : TokenKind
  value : String
  location : Location
deriving Repr, Inhabited

/-- How a token is named in messages: its kind, and its quoted text when it has one. -/
def Token.describe (t : Token) : String :=
  if t.value.isEmpty then t.kind.describe else t.kind.describe ++ " " ++ Quoted.encode t.value

/-- Reading position: the text left, characters read, the line, and the character offset at
which the line starts. -/
structure Scanner where
  rest : List Char
  offset : Nat
  line : Nat
  lineStart : Nat

namespace Scanner

/-- Where the scanner stands, as a location. -/
def location (s : Scanner) : Location := ⟨s.line, (s.offset : Int) - s.lineStart + 1⟩

/-- Steps over one character of the same line. -/
def advance (s : Scanner) (n : Nat := 1) : Scanner :=
  { s with rest := s.rest.drop n, offset := s.offset + n }

/-- Skips blanks, commas, line ends and a byte order mark. -/
def skipBlanks (s : Scanner) : Scanner :=
  match _h : s.rest with
  | ' ' :: rest | '\t' :: rest | ',' :: rest =>
    skipBlanks { s with rest := rest, offset := s.offset + 1 }
  | '\n' :: rest =>
    skipBlanks { s with rest := rest, offset := s.offset + 1, line := s.line + 1, lineStart := s.offset + 1 }
  | '\r' :: '\n' :: more =>
    skipBlanks { s with rest := more, offset := s.offset + 2, line := s.line + 1, lineStart := s.offset + 1 }
  | '\r' :: rest =>
    skipBlanks { s with rest := rest, offset := s.offset + 1, line := s.line + 1, lineStart := s.offset + 1 }
  | c :: rest => if c.toNat == 0xFEFF then skipBlanks { s with rest := rest, offset := s.offset + 1 } else s
  | [] => s
termination_by s.rest.length
decreasing_by all_goals (rw [_h]; simp only [List.length_cons]; omega)

end Scanner

/-- Whether a character may continue a name. -/
def isNameChar (c : Char) : Bool := c.isAlphanum || c == '_'

/-- Whether a character may start a name. -/
def isNameStart (c : Char) : Bool := c.isAlpha || c == '_'

/-- Lines of a block string with their common indentation removed and blank leading and
trailing lines dropped. -/
def blockStringValue (raw : String) : String :=
  let lines := raw.splitOn "\n"
  let indentOf (line : String) : Option Nat :=
    let cs := line.toList
    let n := (cs.takeWhile fun c => c == ' ' || c == '\t').length
    if n == cs.length then none else some n
  let common := (lines.drop 1).foldl (fun acc line =>
    match indentOf line, acc with
    | some n, some m => some (min n m)
    | some n, none => some n
    | none, acc => acc) none
  let lines := match common with
    | some n => match lines with
      | first :: rest => first :: rest.map fun (line : String) => String.ofList (line.toList.drop n)
      | [] => []
    | none => lines
  let blank (line : String) : Bool := (indentOf line).isNone
  let lines := lines.dropWhile blank
  let lines := (lines.reverse.dropWhile blank).reverse
  "\n".intercalate lines

namespace Scanner

/-- An invalid token at the scanner's position. -/
def invalid (s : Scanner) : Token := ⟨.invalid, "", s.location⟩

/-- Reads the rest of a name. -/
def readName (start : Scanner) (s : Scanner) : Token × Scanner :=
  let cs := s.rest.takeWhile isNameChar
  let s' := s.advance cs.length
  (⟨.name, String.ofList (start.rest.take (s'.offset - start.offset)), start.location⟩, s')

/-- Steps over a leading minus. -/
def skipMinus (s : Scanner) : Scanner :=
  match s.rest with
  | '-' :: _ => s.advance
  | _ => s

/-- Steps over the integer part of a number: a lone zero, or digits; `none` when there are no
digits or a zero leads more. -/
def integerPart? (s : Scanner) : Option Scanner :=
  match s.rest with
  | '0' :: rest => if (rest.takeWhile Char.isDigit).isEmpty then some s.advance else none
  | _ =>
    let ds := s.rest.takeWhile Char.isDigit
    if ds.isEmpty then none else some (s.advance ds.length)

/-- Steps over a fraction; tells whether there is one, and whether its digits are missing. -/
def fractionPart (s : Scanner) : Scanner × Bool × Bool :=
  match s.rest with
  | '.' :: rest =>
    let ds := rest.takeWhile Char.isDigit
    if ds.isEmpty then (s.advance, true, true) else (s.advance (ds.length + 1), true, false)
  | _ => (s, false, false)

/-- Steps over an exponent; tells whether the number is a float, and whether the exponent's
digits are missing. -/
def exponentPart (s : Scanner) (isFloat : Bool) : Scanner × Bool × Bool :=
  match s.rest with
  | c :: rest =>
    if c == 'e' || c == 'E' then
      let (s, rest) := match rest with
        | '+' :: more => (s.advance 2, more)
        | '-' :: more => (s.advance 2, more)
        | _ => (s.advance, rest)
      let ds := rest.takeWhile Char.isDigit
      if ds.isEmpty then (s, true, true) else (s.advance ds.length, true, false)
    else (s, isFloat, false)
  | [] => (s, isFloat, false)

/-- Reads a number from its first character. -/
def readNumber (start : Scanner) : Token × Scanner :=
  let s := start.skipMinus
  match s.integerPart? with
  | none =>
    -- the invalid token stands after the sign, or after a leading zero
    let s' := match s.rest with
      | '0' :: _ => s.advance
      | _ => s
    (s'.invalid, s')
  | some s =>
    let (s, isFloat, bad) := s.fractionPart
    if bad then (s.invalid, s)
    else
      let (s, isFloat, bad) := s.exponentPart isFloat
      if bad then (s.invalid, s)
      else
        let text := String.ofList (start.rest.take (s.offset - start.offset))
        (⟨if isFloat then .float else .int, text, start.location⟩, s)

def hexValue? (c : Char) : Option Nat :=
  if '0' ≤ c ∧ c ≤ '9' then some (c.toNat - '0'.toNat)
  else if 'a' ≤ c ∧ c ≤ 'f' then some (c.toNat - 'a'.toNat + 10)
  else if 'A' ≤ c ∧ c ≤ 'F' then some (c.toNat - 'A'.toNat + 10)
  else none

/-- The character a one-letter escape stands for. -/
def escapedChar? : Char → Option Char
  | '"' => some '"'
  | '\\' => some '\\'
  | '/' => some '/'
  | 'b' => some '\x08'
  | 'f' => some '\x0c'
  | 'n' => some '\n'
  | 'r' => some '\r'
  | 't' => some '\t'
  | _ => none

/-- The character of a four-digit unicode escape; a surrogate stands for U+FFFD. -/
def unicodeEscape? (a b c d : Char) : Option Char :=
  match hexValue? a, hexValue? b, hexValue? c, hexValue? d with
  | some a, some b, some c, some d =>
    let u := ((a * 16 + b) * 16 + c) * 16 + d
    some (if 0xD800 ≤ u ∧ u < 0xE000 then Char.ofNat 0xFFFD else Char.ofNat u)
  | _, _, _, _ => none

/-- Reads a quoted string after its opening quote; `acc` holds the characters so far. A
unicode escape needs a character after its four digits. -/
def readString (start : Scanner) (acc : List Char) (s : Scanner) : Token × Scanner :=
  match _h : s.rest with
  | [] => (s.invalid, s)
  | '\\' :: 'u' :: a :: b :: c :: d :: next :: after =>
    match unicodeEscape? a b c d with
    | some ch => readString start (ch :: acc) { s with rest := next :: after, offset := s.offset + 6 }
    | none => (s.advance.invalid, s.advance)
  | '\\' :: e :: more =>
    match escapedChar? e with
    | some ch => readString start (ch :: acc) { s with rest := more, offset := s.offset + 2 }
    | none => (s.advance.invalid, s.advance)
  | ['\\'] => (s.advance.invalid, s.advance)
  | c :: rest =>
    if c == '\n' || c == '\r' then (s.invalid, s)
    else if c == '"' then (⟨.string, String.ofList acc.reverse, start.location⟩, s.advance)
    else if c.toNat < 0x20 && c != '\t' then (s.invalid, s)
    else readString start (c :: acc) { s with rest := rest, offset := s.offset + 1 }
termination_by s.rest.length
decreasing_by all_goals (rw [_h]; simp only [List.length_cons]; omega)

/-- Reads a block string after its opening quotes; `acc` holds the raw characters so far. -/
def readBlockString (start : Scanner) (acc : List Char) (s : Scanner) : Token × Scanner :=
  match _h : s.rest with
  | [] => (s.invalid, s)
  | '"' :: '"' :: '"' :: rest =>
    (⟨.blockString, blockStringValue (String.ofList acc.reverse),
        ⟨s.line, (start.offset : Int) - s.lineStart + 1⟩⟩,
      { s with rest := rest, offset := s.offset + 3 })
  | '\\' :: '"' :: '"' :: '"' :: rest =>
    readBlockString start ('"' :: '"' :: '"' :: acc) { s with rest := rest, offset := s.offset + 4 }
  | '\r' :: '\n' :: rest =>
    readBlockString start ('\n' :: acc)
      { s with rest := rest, offset := s.offset + 2, line := s.line + 1, lineStart := s.offset + 2 }
  | '\r' :: rest =>
    readBlockString start ('\n' :: acc)
      { s with rest := rest, offset := s.offset + 1, line := s.line + 1, lineStart := s.offset + 1 }
  | '\n' :: rest =>
    readBlockString start ('\n' :: acc)
      { s with rest := rest, offset := s.offset + 1, line := s.line + 1, lineStart := s.offset + 1 }
  | c :: rest =>
    if c.toNat < 0x20 && c != '\t' then (s.invalid, s)
    else readBlockString start (c :: acc) { s with rest := rest, offset := s.offset + 1 }
termination_by s.rest.length
decreasing_by all_goals simp_all <;> omega

/-- Skips a comment: everything up to a control character other than tab. -/
def skipComment (s : Scanner) : Scanner :=
  let cs := s.rest.takeWhile fun c => c.toNat > 0x1f || c == '\t'
  s.advance cs.length

/-- A punctuator of one character. -/
def punctuator? (c : Char) : Option TokenKind :=
  match c with
  | '!' => some .bang
  | '$' => some .dollar
  | '&' => some .amp
  | '(' => some .parenL
  | ')' => some .parenR
  | ':' => some .colon
  | '=' => some .equals
  | '@' => some .at
  | '[' => some .bracketL
  | ']' => some .bracketR
  | '\x7b' => some .braceL
  | '\x7d' => some .braceR
  | '|' => some .pipe
  | _ => none

/-- Reads the next token after blanks and comments; `fuel` bounds the comments skipped. -/
def nextToken (fuel : Nat) (s : Scanner) : Token × Scanner :=
  let s := s.skipBlanks
  match s.rest with
  | [] => (⟨.eof, "", s.location⟩, s)
  | c :: rest =>
    match punctuator? c with
    | some kind => (⟨kind, "", s.location⟩, s.advance)
    | none =>
      if c == '#' then
        match fuel with
        | 0 => (s.invalid, s)
        | fuel + 1 => nextToken fuel (s.skipComment)
      else if c == '.' then
        match rest with
        | '.' :: '.' :: _ => (⟨.spread, "", s.location⟩, s.advance 3)
        | _ => (s.invalid, s)
      else if isNameStart c then readName s s.advance
      else if c == '-' || c.isDigit then readNumber s
      else if c == '"' then
        match rest with
        | '"' :: '"' :: _ => readBlockString s [] (s.advance 3)
        | _ => readString s [] s.advance
      else (s.invalid, s)

/-- All tokens of a text, up to the end or the first invalid token, which ends the list. -/
def tokens (fuel : Nat) (s : Scanner) : List Token :=
  match fuel with
  | 0 => [s.invalid]
  | fuel + 1 =>
    let (t, s') := nextToken s.rest.length s
    match t.kind with
    | .eof => [t]
    | .invalid => [t]
    | _ => t :: tokens fuel s'

end Scanner

/-- The tokens of a document text; every token but the last takes at least one character. -/
def tokenize (text : String) : List Token :=
  let cs := text.toList
  Scanner.tokens (cs.length + 1) ⟨cs, 0, 1, 0⟩

end GraphWeave
