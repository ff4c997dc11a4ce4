import GraphWeave.Config

/-!
Command-line flags: their declarations, how they are written, and reading them off the words of a
command line.
-/

namespace GraphWeave.Cli

/-- What a flag takes. -/
inductive FlagKind where
  /-- A text; the last one given wins. -/
  | text
  /-- A Boolean that is `true` when given without a value. -/
  | switch
  /-- Texts, one per time the flag is given. -/
  | texts
deriving DecidableEq, Repr, Inhabited

/-- A flag declaration. -/
structure Flag where
  name : String
  shorthand : Option Char := none
  kind : FlagKind
  usage : String
  /-- The value when the flag is not given, as text. -/
  default : String := ""
deriving Repr, Inhabited

namespace FlagKind

/-- The word that stands for the value in help text; none for a switch. -/
def placeholder : FlagKind → Option String
  | .text => some "string"
  | .switch => none
  | .texts => some "stringArray"

/-- The default text that means "no default". -/
def zero : FlagKind → String
  | .text => ""
  | .switch => "false"
  | .texts => "[]"

end FlagKind

/-- What the words of a command line set: the values given to each flag, in order, and the
arguments. -/
structure Parsed where
  values : List (String × List String) := []
  arguments : List String := []
deriving Repr, Inhabited

namespace Parsed

/-- The values given to a flag. -/
def given (p : Parsed) (name : String) : List String := (p.values.lookup name).getD []

/-- Whether a flag was given. -/
def changed (p : Parsed) (name : String) : Bool := !(p.given name).isEmpty

/-- A text flag's value: the last one given, else its default. -/
def text (p : Parsed) (flags : List Flag) (name : String) : String :=
  match (p.given name).getLast? with
  | some v => v
  | none => ((flags.find? (·.name == name)).map (·.default)).getD ""

/-- A switch: whether it was last given as true. -/
def switch (p : Parsed) (name : String) : Bool :=
  match (p.given name).getLast? with
  | some v =>
    match Config.parseBool v with
    | .ok b => b
    | .error _ => false
  | none => false

/-- Records a value given to a flag. -/
def add (p : Parsed) (name value : String) : Parsed :=
  if p.values.any (·.1 == name) then
    { p with values := p.values.map fun (n, vs) => if n == name then (n, vs ++ [value]) else (n, vs) }
  else { p with values := p.values ++ [(name, [value])] }

end Parsed

/-- A one-letter shorthand in single quotes, with the quote and backslash escaped. -/
def quoteLetter (c : Char) : String :=
  if c.toNat == 39 then "'\\''"
  else if c == '\\' then "'\\\\'"
  else "'" ++ String.singleton c ++ "'"

/-- The name of a flag in messages: with its shorthand when it has one. -/
def Flag.display (f : Flag) : String :=
  match f.shorthand with
  | some c => "-" ++ String.singleton c ++ ", --" ++ f.name
  | none => "--" ++ f.name

/-- Sets a flag to a value given on the line; a switch must be given a Boolean. -/
def assign (p : Parsed) (f : Flag) (value : String) : Except String Parsed :=
  match f.kind with
  | .switch =>
    match Config.parseBool value with
    | .ok _ => .ok (p.add f.name value)
    | .error e => .error ("invalid argument " ++ Quoted.encode value ++ " for " ++
        Quoted.encode f.display ++ " flag: " ++ e)
  | _ => .ok (p.add f.name value)

/-- Reads the letters of a shorthand group such as `-abc`; returns the words left over. -/
def readShorthands (flags : List Flag) (p : Parsed) (rest : List String) :
    List Char → Except String (Parsed × List String)
  | [] => .ok (p, rest)
  | c :: more =>
    match flags.find? (·.shorthand == some c) with
    | none => .error ("unknown shorthand flag: " ++ quoteLetter c ++ " in -" ++ String.ofList (c :: more))
    | some f =>
      match more with
      | '=' :: value@(_ :: _) => do
        let p ← assign p f (String.ofList value)
        .ok (p, rest)
      | _ =>
        if f.kind == .switch then do
          let p ← assign p f "true"
          readShorthands flags p rest more
        else if !more.isEmpty then do
          let p ← assign p f (String.ofList more)
          .ok (p, rest)
        else
          match rest with
          | value :: rest => do
            let p ← assign p f value
            .ok (p, rest)
          | [] => .error ("flag needs an argument: " ++ quoteLetter c ++ " in -" ++ String.singleton c)

/-- Reads a long flag written as `word`, which starts with two dashes. -/
def readLong (flags : List Flag) (p : Parsed) (word : String) (rest : List String) :
    Except String (Parsed × List String) :=
  let body := (word.drop 2).toString
  match body.toList with
  | [] | '-' :: _ | '=' :: _ => .error ("bad flag syntax: " ++ word)
  | cs =>
    let name := String.ofList (cs.takeWhile (· != '='))
    let value := match cs.dropWhile (· != '=') with
      | '=' :: v => some (String.ofList v)
      | _ => none
    match flags.find? (·.name == name) with
    | none => .error ("unknown flag: --" ++ name)
    | some f =>
      match value with
      | some v => do
        let p ← assign p f v
        .ok (p, rest)
      | none =>
        if f.kind == .switch then do
          let p ← assign p f "true"
          .ok (p, rest)
        else
          match rest with
          | v :: rest => do
            let p ← assign p f v
            .ok (p, rest)
          | [] => .error ("flag needs an argument: " ++ word)

/-- Reads the words of a command line against the declared flags. -/
def parseFlags (flags : List Flag) (words : List String) : Except String Parsed :=
  go words.length {} words
where
  go : Nat → Parsed → List String → Except String Parsed
    | 0, p, rest => .ok { p with arguments := p.arguments ++ rest }
    | fuel + 1, p, words =>
      match words with
      | [] => .ok p
      | word :: rest =>
        match word.toList with
        | '-' :: '-' :: [] => .ok { p with arguments := p.arguments ++ rest }
        | '-' :: '-' :: _ => do
          let (p, rest) ← readLong flags p word rest
          go fuel p rest
        | '-' :: c :: more => do
          let (p, rest) ← readShorthands flags p rest (c :: more)
          go fuel p rest
        | _ => go fuel { p with arguments := p.arguments ++ [word] } rest

end GraphWeave.Cli
