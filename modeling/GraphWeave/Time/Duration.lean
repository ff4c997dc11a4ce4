import GraphWeave.Number.Binary

/-!
Durations in nanoseconds and their text: `1h2m3.5s`, `1.5ms`, `250µs`, `5ns`, `0s`.
-/

namespace GraphWeave

/-- A span of time in nanoseconds. -/
structure Duration where
  nanos : Int
deriving DecidableEq, Repr, Inhabited

namespace Duration

/-- Nanoseconds per unit, for the units a duration text may use. -/
def units : List (String × Nat) :=
  [("ns", 1), ("us", 1000), ("µs", 1000), ("μs", 1000), ("ms", 1000000), ("s", 1000000000),
   ("m", 60000000000), ("h", 3600000000000)]

/-- `.ddd` for the fraction `v / 10 ^ places`, trailing zeros dropped, nothing when it is zero. -/
def fraction (v places : Nat) : String :=
  let digits := toString (v % Nat.pow 10 places)
  let digits := String.ofList (List.replicate (places - digits.length) '0') ++ digits
  let kept := (digits.toList.reverse.dropWhile (· == '0')).reverse
  if kept.isEmpty then "" else "." ++ String.ofList kept

/-- Text of a duration. -/
def render (d : Duration) : String :=
  let u := d.nanos.natAbs
  let sign := if d.nanos < 0 then "-" else ""
  if u == 0 then "0s"
  else if u < 1000 then sign ++ toString u ++ "ns"
  else if u < 1000000 then sign ++ toString (u / 1000) ++ fraction u 3 ++ "µs"
  else if u < 1000000000 then sign ++ toString (u / 1000000) ++ fraction u 6 ++ "ms"
  else
    let secs := u / 1000000000
    let text := toString (secs % 60) ++ fraction u 9 ++ "s"
    let mins := secs / 60
    let text :=
      if mins == 0 then text
      else
        let text := toString (mins % 60) ++ "m" ++ text
        let hours := mins / 60
        if hours == 0 then text else toString hours ++ "h" ++ text
    sign ++ text

/-- Seconds as a rounded double: whole seconds plus the rounded fraction. -/
def seconds (d : Duration) : Binary64 :=
  let whole : Int := d.nanos.tdiv 1000000000
  let part : Int := d.nanos.tmod 1000000000
  (BinaryFloat.ofInt whole).add ((BinaryFloat.ofInt part).div (BinaryFloat.ofInt 1000000000))

/-- The quoted form of the input used in messages: quote and backslash escaped, bytes of
characters outside printable ASCII written `\xHH`. -/
def quoteInput (s : String) : String :=
  let body := s.toList.flatMap fun c =>
    if c.toNat ≥ 0x80 || c.toNat < 0x20 then
      (String.singleton c).toUTF8.toList.flatMap fun b =>
        let hex := Nat.toDigits 16 b.toNat
        '\\' :: 'x' :: (List.replicate (2 - hex.length) '0' ++ hex)
    else if c == '"' || c == '\\' then ['\\', c]
    else [c]
  "\"" ++ String.ofList body ++ "\""

/-- Why a text is not a duration. -/
inductive ParseError where
  | invalid (input : String)
  | missingUnit (input : String)
  | unknownUnit (unit input : String)
deriving DecidableEq, Repr

/-- The message of a parse error. -/
def ParseError.message : ParseError → String
  | .invalid s => "time: invalid duration " ++ quoteInput s
  | .missingUnit s => "time: missing unit in duration " ++ quoteInput s
  | .unknownUnit u s => "time: unknown unit " ++ quoteInput u ++ " in duration " ++ quoteInput s

private def limit : Nat := Nat.pow 2 63

/-- Leading digits as an integer, failing past `2 ^ 63`. -/
private def leadingInt (cs : List Char) : Option (Nat × List Char) :=
  let ds := cs.takeWhile Char.isDigit
  let v := ds.foldl (fun (acc : Option Nat) c => acc.bind fun x =>
    if x > limit / 10 then none
    else
      let y := x * 10 + (c.toNat - '0'.toNat)
      if y > limit then none else some y) (some 0)
  v.map fun x => (x, cs.drop ds.length)

/-- Leading fraction digits: the value and its scale; digits past overflow are ignored. -/
private def leadingFraction (cs : List Char) : Nat × Nat × List Char :=
  let ds := cs.takeWhile Char.isDigit
  let (x, scale, _) := ds.foldl (fun (x, scale, overflow) c =>
    if overflow then (x, scale, true)
    else if x > (limit - 1) / 10 then (x, scale, true)
    else
      let y := x * 10 + (c.toNat - '0'.toNat)
      if y > limit then (x, scale, true) else (y, scale * 10, false)) (0, 1, false)
  (x, scale, cs.drop ds.length)

/-- Reads the components after the sign; `total` is the sum so far. Each component takes at
least one character, so the length of the text is enough fuel. -/
private def readComponents (input : String) (fuel total : Nat) (cs : List Char) :
    Except ParseError Nat :=
  match fuel, cs with
  | _, [] => .ok total
  | 0, _ => .error (.invalid input)
  | fuel + 1, c :: _ =>
    if !(c == '.' || c.isDigit) then .error (.invalid input)
    else
      match leadingInt cs with
      | none => .error (.invalid input)
      | some (v, rest) =>
        let pre := rest.length != cs.length
        let (f, scale, post, rest) := match rest with
          | '.' :: more =>
            let (f, scale, rest') := leadingFraction more
            (f, scale, rest'.length != more.length, rest')
          | _ => (0, 1, false, rest)
        if !pre && !post then .error (.invalid input)
        else
          let unitChars := rest.takeWhile fun c => !(c == '.' || c.isDigit)
          let rest := rest.drop unitChars.length
          if unitChars.isEmpty then .error (.missingUnit input)
          else
            let unitName := String.ofList unitChars
            match units.lookup unitName with
            | none => .error (.unknownUnit unitName input)
            | some unit =>
              if v > limit / unit then .error (.invalid input)
              else
                let v := v * unit
                let v :=
                  if f > 0 then
                    let part : Binary64 := (BinaryFloat.ofInt f).mul
                      ((BinaryFloat.ofInt unit).div (BinaryFloat.ofInt scale))
                    v + (part.truncate?.getD 0).toNat
                  else v
                if v > limit then .error (.invalid input)
                else
                  let total := total + v
                  if total > limit then .error (.invalid input)
                  else readComponents input fuel total rest

/-- Reads a duration: an optional sign, then numbers with units, or a lone `0`. -/
def parse (s : String) : Except ParseError Duration :=
  let cs := s.toList
  let (negative, cs) := match cs with
    | '-' :: rest => (true, rest)
    | '+' :: rest => (false, rest)
    | _ => (false, cs)
  if cs == ['0'] then .ok ⟨0⟩
  else if cs.isEmpty then .error (.invalid s)
  else
    match readComponents s cs.length 0 cs with
    | .error e => .error e
    | .ok total =>
      if negative then .ok ⟨-(total : Int)⟩
      else if total > limit - 1 then .error (.invalid s)
      else .ok ⟨total⟩

end Duration

end GraphWeave
