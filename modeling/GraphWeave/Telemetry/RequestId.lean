/-!
Request ids: a client may supply one, which is kept when it reads as a UUID and replaced by a fresh
one otherwise.
-/

namespace GraphWeave.RequestId

/-- Whether a byte is a hex digit. -/
def isHexByte (b : UInt8) : Bool :=
  (48 ≤ b && b ≤ 57) || (65 ≤ b && b ≤ 70) || (97 ≤ b && b ≤ 102)

/-- Whether 36 bytes are hex digits in groups of 8, 4, 4, 4 and 12 with hyphens between. -/
def isHyphenated (bs : List UInt8) : Bool :=
  bs.length == 36 && (List.range 36).all fun i =>
    let b := bs.getD i 0
    if i == 8 || i == 13 || i == 18 || i == 23 then b == 45 else isHexByte b

/-- Lower-cases ASCII letters of a byte. -/
def lowerByte (b : UInt8) : UInt8 := if 65 ≤ b && b ≤ 90 then b + 32 else b

/-- Whether a text reads as a UUID. -/
def isUuid (s : String) : Bool :=
  let bs := s.toUTF8.toList
  match bs.length with
  | 32 => bs.all isHexByte
  | 36 => isHyphenated bs
  | 38 => isHyphenated ((bs.drop 1).take 36)
  | 45 => (bs.take 9).map lowerByte == "urn:uuid:".toUTF8.toList && isHyphenated (bs.drop 9)
  | _ => false

/-- Twelve lower-case hex digits of a number. -/
def hex12 (n : Nat) : String :=
  let ds := Nat.toDigits 16 (n % Nat.pow 2 48)
  String.ofList (List.replicate (12 - ds.length) '0' ++ ds)

/-- The fresh id of a number. -/
def fresh (n : Nat) : String := "f47ac10b-58cc-4372-a567-" ++ hex12 n

/-- A supply of fresh ids: the number of the next one. -/
structure Supply where
  next : Nat := 0
deriving Repr, Inhabited

/-- Takes a fresh id. -/
def Supply.take (s : Supply) : String × Supply := (fresh s.next, ⟨s.next + 1⟩)

/-- The id to use for a supplied one: itself when it is a UUID, else a fresh one. -/
def Supply.accept (s : Supply) (given : String) : String × Supply :=
  if isUuid given then (given, s) else s.take

/-- What a context carries of a request id. -/
structure Context where
  requestId : Option String := none

/-- A context that carries a fresh id, with the id. -/
def Supply.newContext (s : Supply) (parent : Context) : (Context × String) × Supply :=
  let (id, s) := s.take
  (({ parent with requestId := some id }, id), s)

/-- A context that carries the id to use for a supplied one, with the id. -/
def Supply.withId (s : Supply) (parent : Context) (given : String) : (Context × String) × Supply :=
  let (id, s) := s.accept given
  (({ parent with requestId := some id }, id), s)

end GraphWeave.RequestId
