import GraphWeave.Json.Basic

/-!
Reading JSON text. The reader follows the JSON grammar; escapes `\uXXXX` pair surrogates,
and a surrogate without its partner reads as U+FFFD. Nesting is bounded by the length of the
text, which is the fuel of the reader.
-/

namespace GraphWeave.Json

/-- Why a text is not one JSON document: what was expected, and the offset (in characters)
where reading stopped. -/
structure ParseError where
  expected : String
  offset : Nat
deriving Repr

private def isBlank (c : Char) : Bool := c == ' ' || c == '\t' || c == '\n' || c == '\r'

private def hexValue? (c : Char) : Option Nat :=
  if '0' ≤ c ∧ c ≤ '9' then some (c.toNat - '0'.toNat)
  else if 'a' ≤ c ∧ c ≤ 'f' then some (c.toNat - 'a'.toNat + 10)
  else if 'A' ≤ c ∧ c ≤ 'F' then some (c.toNat - 'A'.toNat + 10)
  else none

private def hex4? (a b c d : Char) : Option Nat :=
  match hexValue? a, hexValue? b, hexValue? c, hexValue? d with
  | some a, some b, some c, some d => some (((a * 16 + b) * 16 + c) * 16 + d)
  | _, _, _, _ => none

private def isHigh (u : Nat) : Bool := 0xD800 ≤ u && u < 0xDC00

private def isLow (u : Nat) : Bool := 0xDC00 ≤ u && u < 0xE000

/-- State of the reader: the text left and the offset reached. -/
private abbrev Reader := List Char × Nat

private def skipBlanks : Reader → Reader
  | (c :: rest, n) => if isBlank c then skipBlanks (rest, n + 1) else (c :: rest, n)
  | ([], n) => ([], n)

/-- Reads the characters of a string after its opening quote. -/
private def readString (acc : List Char) : Reader → Except ParseError (String × Reader)
  | ([], n) => .error ⟨"closing quote", n⟩
  | ('"' :: rest, n) => .ok (String.ofList acc.reverse, (rest, n + 1))
  | ('\\' :: 'u' :: a :: b :: c :: d :: '\\' :: 'u' :: e :: f :: g :: h :: rest, n) =>
    match hex4? a b c d, hex4? e f g h with
    | some u, some l =>
      if isHigh u && isLow l then
        readString (Char.ofNat (0x10000 + (u - 0xD800) * 0x400 + (l - 0xDC00)) :: acc) (rest, n + 12)
      else
        let c := if isHigh u || isLow u then Char.ofNat 0xFFFD else Char.ofNat u
        readString (c :: acc) ('\\' :: 'u' :: e :: f :: g :: h :: rest, n + 6)
    | some u, none =>
      let c := if isHigh u || isLow u then Char.ofNat 0xFFFD else Char.ofNat u
      readString (c :: acc) ('\\' :: 'u' :: e :: f :: g :: h :: rest, n + 6)
    | none, _ => .error ⟨"four hexadecimal digits", n + 2⟩
  | ('\\' :: 'u' :: a :: b :: c :: d :: rest, n) =>
    match hex4? a b c d with
    | some u =>
      let c := if isHigh u || isLow u then Char.ofNat 0xFFFD else Char.ofNat u
      readString (c :: acc) (rest, n + 6)
    | none => .error ⟨"four hexadecimal digits", n + 2⟩
  | ('\\' :: c :: rest, n) =>
    match c with
    | '"' => readString ('"' :: acc) (rest, n + 2)
    | '\\' => readString ('\\' :: acc) (rest, n + 2)
    | '/' => readString ('/' :: acc) (rest, n + 2)
    | 'b' => readString ('\x08' :: acc) (rest, n + 2)
    | 'f' => readString ('\x0c' :: acc) (rest, n + 2)
    | 'n' => readString ('\n' :: acc) (rest, n + 2)
    | 'r' => readString ('\r' :: acc) (rest, n + 2)
    | 't' => readString ('\t' :: acc) (rest, n + 2)
    | _ => .error ⟨"an escape", n + 1⟩
  | (c :: rest, n) =>
    if c.toNat < 0x20 then .error ⟨"a character", n⟩ else readString (c :: acc) (rest, n + 1)
termination_by r => r.1.length

private def digitRun (r : Reader) : List Char × Reader :=
  let ds := r.1.takeWhile Char.isDigit
  (ds, (r.1.drop ds.length, r.2 + ds.length))

private def digitsValue (cs : List Char) : Nat :=
  cs.foldl (fun n c => 10 * n + (c.toNat - '0'.toNat)) 0

/-- Reads a number: `-? (0 | [1-9][0-9]*) (. [0-9]+)? ([eE] [+-]? [0-9]+)?`. -/
private def readNumber (r : Reader) : Except ParseError (JsonNumber × Reader) :=
  let (negative, r) := match r with
    | ('-' :: rest, n) => (true, (rest, n + 1))
    | _ => (false, r)
  let (whole, r) := digitRun r
  if whole.isEmpty then .error ⟨"a digit", r.2⟩
  else if whole.length > 1 && whole.head? == some '0' then .error ⟨"the end of the number", r.2 - whole.length + 1⟩
  else
    let fraction : Except ParseError (List Char × Reader) := match r with
      | ('.' :: rest, n) =>
        let (ds, r') := digitRun (rest, n + 1)
        if ds.isEmpty then .error ⟨"a digit", r'.2⟩ else .ok (ds, r')
      | _ => .ok ([], r)
    match fraction with
    | .error e => .error e
    | .ok (frac, r) =>
      let hasFraction := match r with
        | _ => !frac.isEmpty
      let exponent : Except ParseError (Option Int × Reader) := match r with
        | (c :: rest, n) =>
          if c == 'e' || c == 'E' then
            let (eneg, r') := match rest with
              | '-' :: more => (true, (more, n + 2))
              | '+' :: more => (false, (more, n + 2))
              | _ => (false, (rest, n + 1))
            let (ds, r'') := digitRun r'
            if ds.isEmpty then .error ⟨"a digit", r''.2⟩
            else
              let v : Int := digitsValue ds
              .ok (some (if eneg then -v else v), r'')
          else .ok (none, r)
        | _ => .ok (none, r)
      match exponent with
      | .error e => .error e
      | .ok (ex, r) =>
        .ok (⟨negative, digitsValue (whole ++ frac), ex.getD 0 - frac.length,
          !hasFraction && ex.isNone⟩, r)

private def keyword (word : String) (value : Json) (r : Reader) : Except ParseError (Json × Reader) :=
  let w := word.toList
  if r.1.take w.length == w then .ok (value, (r.1.drop w.length, r.2 + w.length))
  else .error ⟨"a value", r.2⟩

mutual

/-- Reads one value after blanks; `fuel` bounds the nesting. -/
private def readValue (fuel : Nat) (r : Reader) : Except ParseError (Json × Reader) :=
  match fuel with
  | 0 => .error ⟨"less nesting", r.2⟩
  | fuel + 1 =>
    let r := skipBlanks r
    match r with
    | ('{' :: rest, n) => readMembers fuel [] (skipBlanks (rest, n + 1)) true
    | ('[' :: rest, n) => readItems fuel [] (skipBlanks (rest, n + 1)) true
    | ('"' :: rest, n) =>
      match readString [] (rest, n + 1) with
      | .ok (s, r) => .ok (.str s, r)
      | .error e => .error e
    | ('t' :: _, _) => keyword "true" (.bool true) r
    | ('f' :: _, _) => keyword "false" (.bool false) r
    | ('n' :: _, _) => keyword "null" .null r
    | (c :: _, _) =>
      if c == '-' || c.isDigit then
        match readNumber r with
        | .ok (x, r) => .ok (.num x, r)
        | .error e => .error e
      else .error ⟨"a value", r.2⟩
    | ([], n) => .error ⟨"a value", n⟩

/-- Reads the items of an array after its opening bracket. -/
private def readItems (fuel : Nat) (acc : List Json) (r : Reader) (first : Bool) :
    Except ParseError (Json × Reader) :=
  match fuel with
  | 0 => .error ⟨"less nesting", r.2⟩
  | fuel + 1 =>
    match r with
    | (']' :: rest, n) =>
      if first then .ok (.arr [], (rest, n + 1)) else .error ⟨"a value", n⟩
    | _ =>
      match readValue fuel r with
      | .error e => .error e
      | .ok (v, r) =>
        match skipBlanks r with
        | (',' :: rest, n) => readItems fuel (v :: acc) (skipBlanks (rest, n + 1)) false
        | (']' :: rest, n) => .ok (.arr (v :: acc).reverse, (rest, n + 1))
        | (_, n) => .error ⟨"a comma or a closing bracket", n⟩

/-- Reads the members of an object after its opening brace. -/
private def readMembers (fuel : Nat) (acc : List (String × Json)) (r : Reader) (first : Bool) :
    Except ParseError (Json × Reader) :=
  match fuel with
  | 0 => .error ⟨"less nesting", r.2⟩
  | fuel + 1 =>
    match r with
    | ('}' :: rest, n) =>
      if first then .ok (.obj [], (rest, n + 1)) else .error ⟨"a key", n⟩
    | ('"' :: rest, n) =>
      match readString [] (rest, n + 1) with
      | .error e => .error e
      | .ok (k, r) =>
        match skipBlanks r with
        | (':' :: rest, n) =>
          match readValue fuel (rest, n + 1) with
          | .error e => .error e
          | .ok (v, r) =>
            match skipBlanks r with
            | (',' :: rest, n) => readMembers fuel ((k, v) :: acc) (skipBlanks (rest, n + 1)) false
            | ('}' :: rest, n) => .ok (.obj ((k, v) :: acc).reverse, (rest, n + 1))
            | (_, n) => .error ⟨"a comma or a closing brace", n⟩
        | (_, n) => .error ⟨"a colon", n⟩
    | (_, n) => .error ⟨"a key", n⟩

end

/-- Reads one JSON document, blanks allowed around it. -/
def parse (s : String) : Except ParseError Json :=
  let cs := s.toList
  match readValue (cs.length + 1) (cs, 0) with
  | .error e => .error e
  | .ok (v, r) =>
    match skipBlanks r with
    | ([], _) => .ok v
    | (_, n) => .error ⟨"the end of the text", n⟩

end GraphWeave.Json
