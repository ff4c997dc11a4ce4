import GraphWeave.Value.Basic
import GraphWeave.Json.Basic
import GraphWeave.Text.Quoted

/-!
A lenient JSON reader for variables given on a command line.
-/

namespace GraphWeave.Json.Lenient

/-- Text of bytes read as UTF-8, each byte that starts no valid sequence read as U+FFFD. -/
def decodeBytes (bs : List UInt8) : String :=
  match bs with
  | [] => ""
  | b :: rest =>
    let found := (List.range 4).findSome? fun extra =>
      match String.fromUTF8? (ByteArray.mk ((b :: rest).take (extra + 1)).toArray) with
      | some s => if s.length == 1 && extra < (b :: rest).length then some (s, extra) else none
      | none => none
    match found with
    | some (s, extra) => s ++ decodeBytes (rest.drop extra)
    | none => "�" ++ decodeBytes rest
termination_by bs.length
decreasing_by
  · simp only [List.length_drop, List.length_cons]
    omega
  · simp

/-- Why reading stopped. -/
inductive Failure where
  /-- A step found something it did not expect at a byte offset. -/
  | fault (step problem : String) (offset : Nat)
  /-- A number's text is not a number, or is too large for a double. -/
  | number (text : String) (outOfRange : Bool)
deriving DecidableEq, Repr, Inhabited

/-- The message of a failure in a text of these bytes. -/
def Failure.message (bytes : ByteArray) : Failure → String
  | .fault step problem offset =>
    let all := bytes.toList
    let slice (a b : Nat) := decodeBytes ((all.take b).drop a)
    let peekStart := offset - 10
    step ++ ": " ++ problem ++ ", error found in #" ++ toString (offset - peekStart) ++
      " byte of ...|" ++ slice peekStart (offset + 10) ++ "|..., bigger context ...|" ++
      slice (offset - 50) (offset + 50) ++ "|..."
  | .number text outOfRange =>
    "strconv.ParseFloat: parsing " ++ Quoted.encode text ++ ": " ++
      (if outOfRange then "value out of range" else "invalid syntax")

/-- Reading: the bytes are fixed, the offset moves forward, a failure stops everything. -/
abbrev Reader := ReaderT ByteArray (StateT Nat (Except Failure))

/-- Byte codes the reader tests for. -/
def quote : UInt8 := 34
def backslash : UInt8 := 92

/-- The text of a found byte, NUL at the end of the text. -/
def shown (c : Option UInt8) : String := decodeBytes [c.getD 0]

/-- Stops with a fault at the current offset. -/
def fault {α : Type} (step problem : String) : Reader α := do
  throw (.fault step problem (← get))

/-- The next byte, if any, moving past it. -/
def readByte : Reader (Option UInt8) := do
  let bytes ← read
  let i ← get
  match bytes[i]? with
  | some c => set (i + 1); pure (some c)
  | none => pure none

/-- Steps back over a byte that was read; nothing at the end of the text, where none was. -/
def unread (c : Option UInt8) : Reader Unit :=
  if c.isSome then modify (· - 1) else pure ()

/-- Whether a byte is blank between tokens. -/
def isBlank (c : UInt8) : Bool := c == 32 || c == 10 || c == 9 || c == 13

/-- The first offset from `i` on that holds no blank. -/
def skipBlanks (bytes : ByteArray) (i : Nat) : Nat :=
  if h : i < bytes.size then
    if isBlank bytes[i] then skipBlanks bytes (i + 1) else i
  else i
termination_by bytes.size - i

/-- The next byte that is not blank, moving past it. -/
def nextToken : Reader (Option UInt8) := do
  let bytes ← read
  set (skipBlanks bytes (← get))
  readByte

/-- Reads the expected bytes of a literal; `label` names what was expected. -/
def expectBytes (step label : String) : List UInt8 → Reader Unit
  | [] => pure ()
  | b :: rest => do
    if (← readByte) != some b then fault step ("expect " ++ label)
    expectBytes step label rest

/-- The bytes of a text. -/
def bytesOf (s : String) : List UInt8 := s.toUTF8.toList

/-- The value of a hexadecimal digit. -/
def hexValue (c : UInt8) : Option Nat :=
  if 48 ≤ c && c ≤ 57 then some (c.toNat - 48)
  else if 97 ≤ c && c ≤ 102 then some (c.toNat - 87)
  else if 65 ≤ c && c ≤ 70 then some (c.toNat - 55)
  else none

/-- Four hexadecimal digits; none when the text ends first. -/
def readHex4 : Nat → Nat → Reader (Option Nat)
  | 0, acc => pure (some acc)
  | n + 1, acc => do
    match ← readByte with
    | none => pure none
    | some c =>
      match hexValue c with
      | some d => readHex4 n (acc * 16 + d)
      | none => fault "readU4" ("expects 0~9 or a~f, but found " ++ shown (some c))

/-- The UTF-8 bytes of a code point; surrogates and values past Unicode become U+FFFD. -/
def codeBytes (n : Nat) : List UInt8 :=
  if (0xD800 ≤ n ∧ n < 0xE000) ∨ n > 0x10FFFF then bytesOf "�"
  else bytesOf (String.singleton (Char.ofNat n))

/-- Whether a code unit is a surrogate. -/
def isSurrogate (n : Nat) : Bool := 0xD800 ≤ n && n < 0xE000

/-- The end of the text inside a string. -/
def unexpectedEnd {α : Type} : Reader α := fault "readStringSlowPath" "unexpected end of input"

/-- Reads what follows a backslash, appending its bytes. A `\u` escape of a high surrogate
pairs with a following `\u` escape of a low one; an unpaired surrogate becomes U+FFFD. -/
def readEscape : Nat → Option UInt8 → List UInt8 → Reader (List UInt8)
  | 0, _, _ => unexpectedEnd
  | fuel + 1, c, acc =>
    match c with
    | some 117 => do
      let some r ← readHex4 4 0 | unexpectedEnd
      if !isSurrogate r then return acc ++ codeBytes r
      let next ← readByte
      if next.isNone then unexpectedEnd
      if next != some backslash then
        unread next
        return acc ++ codeBytes r
      let after ← readByte
      if after.isNone then unexpectedEnd
      if after != some 117 then return ← readEscape fuel after (acc ++ codeBytes r)
      let some r2 ← readHex4 4 0 | unexpectedEnd
      if 0xD800 ≤ r && r < 0xDC00 && 0xDC00 ≤ r2 && r2 < 0xE000 then
        return acc ++ codeBytes ((r - 0xD800) * 0x400 + (r2 - 0xDC00) + 0x10000)
      return acc ++ codeBytes r ++ codeBytes r2
    | some 34 => pure (acc ++ [34])
    | some 92 => pure (acc ++ [92])
    | some 47 => pure (acc ++ [47])
    | some 98 => pure (acc ++ [8])
    | some 102 => pure (acc ++ [12])
    | some 110 => pure (acc ++ [10])
    | some 114 => pure (acc ++ [13])
    | some 116 => pure (acc ++ [9])
    | _ => fault "readEscapedChar" "invalid escape char after \\"

/-- Reads the rest of a string that holds escapes, after its opening quote. -/
def readEscapedString : Nat → List UInt8 → Reader String
  | 0, _ => unexpectedEnd
  | fuel + 1, acc => do
    match ← readByte with
    | none => unexpectedEnd
    | some 34 => pure (decodeBytes acc)
    | some 92 => readEscapedString fuel (← readEscape fuel (← readByte) acc)
    | some c => readEscapedString fuel (acc ++ [c])

/-- How a plain run of string bytes ends: at the closing quote, at a control byte, at a
backslash, or at the end of the text. -/
inductive PlainEnd where
  | closed (stop : Nat)
  | control (c : UInt8)
  | escaped

/-- Scans string bytes from `i` for the closing quote. -/
def scanPlain (bytes : ByteArray) (i : Nat) : PlainEnd :=
  if h : i < bytes.size then
    let c := bytes[i]
    if c == quote then .closed i
    else if c == backslash then .escaped
    else if c < 32 then .control c
    else scanPlain bytes (i + 1)
  else .escaped
termination_by bytes.size - i

/-- Reads a string, or the word `null` as the empty string. -/
def readString : Reader String := do
  match ← nextToken with
  | some 34 =>
    let bytes ← read
    let start ← get
    match scanPlain bytes start with
    | .closed stop =>
      set (stop + 1)
      pure (decodeBytes ((bytes.toList.take stop).drop start))
    | .control c => fault "ReadString" ("invalid control character found: " ++ toString c.toNat)
    | .escaped => readEscapedString (bytes.size + 1) []
  | some 110 => expectBytes "skipThreeBytes" "ull" (bytesOf "ull"); pure ""
  | c => fault "ReadString" ("expects \" or n, but found " ++ shown c)

/-- How a byte takes part in a number. -/
inductive NumberByte where
  | digit (d : Nat)
  | stop
  | point
  | other

/-- Digits, the point, and the bytes that may follow a number. -/
def numberByte (c : UInt8) : NumberByte :=
  if 48 ≤ c && c ≤ 57 then .digit (c.toNat - 48)
  else if c == 46 then .point
  else if c == 44 || c == 93 || c == 125 || c == 32 || c == 9 || c == 10 then .stop
  else .other

/-- The largest value that can take one more digit without overflowing 64 bits. -/
def safeToScale : Nat := (Nat.pow 2 64 - 1) / 10 - 1

/-- What the quick reading of a number gives: its digits and decimal places with the offset
after it, a fault, or a hand-over to the full reading. -/
inductive QuickNumber where
  | done (digits places stop : Nat)
  | fault (problem : String)
  | full

/-- Reads fraction digits after the point. -/
def quickFraction (bytes : ByteArray) (i value places : Nat) : QuickNumber :=
  if h : i < bytes.size then
    match numberByte bytes[i] with
    | .stop => if 0 < places ∧ places < 7 then .done value places i else .full
    | .other | .point => .full
    | .digit d =>
      if value > safeToScale then .full
      else
        let value := value * 10 + d
        if value > Nat.pow 2 53 then .full else quickFraction bytes (i + 1) value (places + 1)
  else .full
termination_by bytes.size - i

/-- Reads integer digits, then a fraction after a point. -/
def quickInteger (bytes : ByteArray) (i value : Nat) : QuickNumber :=
  if h : i < bytes.size then
    match numberByte bytes[i] with
    | .other => .full
    | .stop => .done value 0 i
    | .point => if i + 1 < bytes.size then quickFraction bytes (i + 1) value 0 else .full
    | .digit d =>
      if value > safeToScale then .full else quickInteger bytes (i + 1) (value * 10 + d)
  else .full
termination_by bytes.size - i

/-- The quick reading of an unsigned number at `i`: plain digits with at most six decimal
places, ended by a byte that may follow a number. -/
def quickNumber (bytes : ByteArray) (i : Nat) : QuickNumber :=
  if h : i < bytes.size then
    match numberByte bytes[i] with
    | .other => .full
    | .stop => .fault "empty number"
    | .point => .fault "leading dot is invalid"
    | .digit d =>
      match bytes[i + 1]? with
      | none => .full
      | some next =>
        match d, numberByte next with
        | 0, .digit _ => .fault "leading zero is invalid"
        | _, _ => quickInteger bytes (i + 1) d
  else .full

/-- Whether a byte may be part of a number's text. -/
def isNumberByte (c : UInt8) : Bool :=
  (48 ≤ c && c ≤ 57) || c == 43 || c == 45 || c == 46 || c == 101 || c == 69

/-- Checks the text of a number beyond what reading it as a decimal checks. -/
def numberTextProblem (s : String) : Option String :=
  let cs := s.toList
  if cs.head? == some '-' then some "-- is not valid"
  else
    match cs.dropWhile (· != '.') with
    | ['.'] => some "dot can not be last character"
    | '.' :: c :: _ => if c.isDigit then none else some "missing digit after dot"
    | _ => none

/-- The full reading of a number: every byte that may belong to one, then the decimal. -/
def fullNumber : Reader Binary64 := do
  let bytes ← read
  let start ← get
  let run := ((bytes.toList.drop start).takeWhile isNumberByte)
  set (start + run.length)
  if run.isEmpty then fault "readNumberAsString" "invalid number"
  let text := decodeBytes run
  if let some problem := numberTextProblem text then fault "readFloat64SlowPath" problem
  match DecimalText.parse? text with
  | none => throw (.number text false)
  | some d =>
    let x : Binary64 := d.toBinary BinaryFormat.binary64
    if x.isFinite then pure x else throw (.number text true)

/-- Reads an unsigned number. -/
def readUnsigned : Reader Binary64 := do
  match quickNumber (← read) (← get) with
  | .done digits places stop =>
    set stop
    pure (BinaryFloat.ofDecimal false digits (-(places : Int)))
  | .fault problem => fault "readFloat64" problem
  | .full => fullNumber

/-- Reads a number, with its sign. -/
def readNumber : Reader Binary64 := do
  let c ← nextToken
  if c == some 45 then return (← readUnsigned).neg
  unread c
  readUnsigned

/-- The deepest nesting of arrays and objects. -/
def maxDepth : Nat := 10000

/-- Goes one level deeper. -/
def deeper (depth : Nat) : Reader Nat :=
  if depth + 1 ≤ maxDepth then pure (depth + 1) else fault "incrementDepth" "exceeded max depth"

mutual

/-- Reads any value. -/
def readValue : Nat → Nat → Reader Value
  | 0, _ => fault "Read" "unexpected value type: 0"
  | fuel + 1, depth => do
    let c ← nextToken
    unread c
    match c with
    | some 34 => .str <$> readString
    | some 110 => expectBytes "skipFourBytes" "null" (bytesOf "null"); pure .null
    | some 116 => let _ ← nextToken; expectBytes "skipThreeBytes" "rue" (bytesOf "rue"); pure (.bool true)
    | some 102 =>
      let _ ← nextToken; expectBytes "skipFourBytes" "alse" (bytesOf "alse"); pure (.bool false)
    | some 91 => let _ ← nextToken; readArray fuel (← deeper depth)
    | some 123 => let _ ← nextToken; readObject fuel (← deeper depth)
    | some c =>
      if c == 45 || (48 ≤ c && c ≤ 57) then .double <$> readNumber
      else fault "Read" "unexpected value type: 0"
    | none => fault "Read" "unexpected value type: 0"

/-- Reads the items of an array after its opening bracket. -/
def readArray : Nat → Nat → Reader Value
  | 0, _ => fault "Read" "unexpected value type: 0"
  | fuel + 1, depth => do
    let c ← nextToken
    if c == some 93 then return .list []
    unread c
    let first ← readValue fuel depth
    .list <$> readItems fuel depth [first]

/-- Reads the items after the first, each after a comma, and the closing bracket. -/
def readItems : Nat → Nat → List Value → Reader (List Value)
  | 0, _, _ => fault "Read" "unexpected value type: 0"
  | fuel + 1, depth, acc => do
    let c ← nextToken
    if c == some 44 then readItems fuel depth (acc ++ [← readValue fuel depth])
    else if c == some 93 then pure acc
    else fault "ReadArrayCB" ("expect ] in the end, but found " ++ shown c)

/-- Reads the members of an object after its opening brace. The first key must be quoted. -/
def readObject : Nat → Nat → Reader Value
  | 0, _ => fault "Read" "unexpected value type: 0"
  | fuel + 1, depth => do
    let c ← nextToken
    if c == some 125 then return .map []
    if c != some quote then fault "ReadMapCB" ("expect \" after \x7b, but found " ++ shown c)
    unread c
    let key ← readString
    if (← nextToken) != some 58 then fault "ReadMapCB" "expect : after object field, but found \""
    let first ← readValue fuel depth
    .map <$> readMembers fuel depth [(key, first)]

/-- Reads the members after the first, each after a comma, and the closing brace. -/
def readMembers : Nat → Nat → List (String × Value) → Reader (List (String × Value))
  | 0, _, _ => fault "Read" "unexpected value type: 0"
  | fuel + 1, depth, acc => do
    let c ← nextToken
    if c == some 44 then
      let key ← readString
      if (← nextToken) != some 58 then fault "ReadMapCB" "expect : after object field, but found ,"
      readMembers fuel depth (acc ++ [(key, ← readValue fuel depth)])
    else if c == some 125 then pure (Json.dedupMembers acc)
    else fault "ReadMapCB" "object not ended with \x7d"

end

/-- Reads the members of the outer object after its opening brace. -/
def readVariables : Nat → List (String × Value) → Reader (List (String × Value))
  | 0, _ => fault "Read" "unexpected value type: 0"
  | fuel + 1, acc => do
    let key ← readString
    let c ← nextToken
    if c != some 58 then fault "ReadMapCB" ("expect : after object field, but found " ++ shown c)
    let acc := acc ++ [(key, ← readValue fuel 1)]
    let c ← nextToken
    if c == some 44 then readVariables fuel acc
    else if c == some 125 then pure (Json.dedupMembers acc)
    else fault "ReadMapCB" ("expect \x7d, but found " ++ shown c)

/-- Reads the outer object, or `null` for none, and checks that nothing follows. -/
def readDocument : Reader (List (String × Value)) := do
  let fuel := 2 * (← read).size + 4
  let c ← nextToken
  let vars ← if c == some 110 then
      expectBytes "skipThreeBytes" "ull" (bytesOf "ull"); pure []
    else do
      if c != some 123 then fault "ReadMapCB" ("expect \x7b or n, but found " ++ shown c)
      let _ ← deeper 0
      let c ← nextToken
      if c == some 125 then pure []
      else
        unread c
        readVariables fuel []
  let c ← nextToken
  if c.getD 0 != 0 then fault "Unmarshal" "there are bytes left after unmarshal"
  pure vars

/-- Reads variables from a text: an object of them, or `null` for none. -/
def variableValues (text : String) : Except String (List (String × Value)) :=
  let bytes := text.toUTF8
  match (readDocument.run bytes).run 0 with
  | .ok (vars, _) => .ok vars
  | .error e => .error (e.message bytes)

end GraphWeave.Json.Lenient
