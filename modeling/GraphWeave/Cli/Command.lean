import GraphWeave.Cli.Flags
import GraphWeave.Text.Case

/-!
Commands of a command line: a tree of named commands, finding the one that the words of a line name,
and their help text.
-/

namespace GraphWeave.Cli

/-- How many arguments a command takes. -/
inductive Arity where
  /-- Not checked by the command; at the top of a tree, an argument must name a command. -/
  | unchecked
  /-- None: an argument is an unknown command. -/
  | none
  /-- Exactly this many. -/
  | exactly (n : Nat)
deriving DecidableEq, Repr, Inhabited

/-- A command and the commands under it. -/
structure Command where
  name : String
  /-- What follows the name in the usage line, such as `<document>`. -/
  usage : String := ""
  summary : String
  description : String := ""
  version : String := ""
  flags : List Flag := []
  /-- Flags that the commands under this one share with it. -/
  shared : List Flag := []
  arity : Arity := .unchecked
  runnable : Bool := true
  /-- Whether the command is offered among the available ones and in suggestions. -/
  available : Bool := true
  subcommands : List Command := []
deriving Inhabited

/-- The commands from the top of a tree down to one of them, the top first. -/
abbrev CommandPath := List Command

namespace CommandPath

/-- The command at the end of the path. -/
def last (p : CommandPath) : Command := p.getLast?.getD default

/-- The names on the path, joined by blanks. -/
def text (p : CommandPath) : String := " ".intercalate (p.map (·.name))

/-- The flags shared by the commands above the last one. -/
def inherited (p : CommandPath) : List Flag := (p.dropLast.map (·.shared)).flatten

/-- The flags a command knows while the line is searched for it: its own, the ones it shares,
and the ones it inherits. -/
def searchFlags (p : CommandPath) : List Flag := p.last.flags ++ p.last.shared ++ p.inherited

/-- The switch that asks for help. -/
def helpFlag (p : CommandPath) : Flag :=
  { name := "help", shorthand := some 'h', kind := .switch, usage := "help for " ++ p.last.name }

/-- The switch that asks for the version, when the command has one; it takes the shorthand
`v` unless a flag has it already. -/
def versionFlag? (p : CommandPath) : Option Flag :=
  if p.last.version.isEmpty then none
  else
    let taken := p.searchFlags.any (·.shorthand == some 'v')
    some { name := "version", shorthand := if taken then none else some 'v', kind := .switch
           usage := "version for " ++ p.last.name }

/-- The flags a command reads its line with. -/
def allFlags (p : CommandPath) : List Flag :=
  p.searchFlags ++ [p.helpFlag] ++ p.versionFlag?.toList

/-- The flags of a command's own, for help text: all but the inherited ones. -/
def localFlags (p : CommandPath) : List Flag :=
  p.last.flags ++ p.last.shared ++ [p.helpFlag] ++ p.versionFlag?.toList

end CommandPath

/-- Whether a flag word takes the next word as its value, by the flags known: long flags that
are not switches and unknown ones, and two-letter shorthands of the same kind. -/
def takesValue (flags : List Flag) (word : String) : Bool :=
  match word.toList with
  | '-' :: '-' :: name =>
    !name.contains '=' &&
      !(flags.any fun f => f.name == String.ofList name && f.kind == .switch)
  | ['-', c] => c != '=' && !(flags.any fun f => f.shorthand == some c && f.kind == .switch)
  | _ => false

/-- The words of a line that are neither flags nor flag values, up to `--`. -/
def commandWords (flags : List Flag) : List String → List String
  | [] => []
  | word :: rest =>
    if word == "--" then []
    else if word.startsWith "-" && takesValue flags word then
      match rest with
      | _ :: more@(_ :: _) => commandWords flags more
      | _ => []
    else if word != "" && !word.startsWith "-" then word :: commandWords flags rest
    else commandWords flags rest
termination_by words => words.length

/-- The words without the first one equal to `name` that is neither a flag nor a flag value. -/
def withoutWord (flags : List Flag) (name : String) : List String → List String
  | [] => []
  | word :: rest =>
    if word == "--" then word :: rest
    else if word.startsWith "-" && takesValue flags word then
      match rest with
      | value :: more => word :: value :: withoutWord flags name more
      | [] => [word]
    else if !word.startsWith "-" && word == name then rest
    else word :: withoutWord flags name rest
termination_by words => words.length

/-- The edit distance between two texts, counting bytes, ignoring ASCII case. -/
def editDistance (a b : String) : Nat :=
  let xs := (lowerCase a).toUTF8.toList
  let ys := (lowerCase b).toUTF8.toList
  let first := List.range (ys.length + 1)
  let last := xs.foldl (fun (prev : List Nat) (x : UInt8) =>
    let start := prev.headD 0 + 1
    let row := (ys.zip (prev.zip prev.tail)).foldl (fun (row : List Nat) (y, diag, up) =>
      let left := row.getLast?.getD start
      row ++ [if x == y then diag else min (min up left) diag + 1]) [start]
    row) first
  last.getLast?.getD 0

/-- The commands under `c` that a mistyped word may have meant. -/
def suggestions (c : Command) (typed : String) : List String :=
  (c.subcommands.filter fun s =>
    s.available && (s.runnable || s.subcommands.any (·.available)) &&
      (editDistance typed s.name ≤ 2 || (lowerCase s.name).startsWith (lowerCase typed))).map
    (·.name)

/-- Why no command could be found: the message, and the command the search stopped at. -/
structure FindError where
  message : String
  path : CommandPath

/-- Finds the command that a line names, from a path down; `fuel` bounds the steps, and each
step takes a word. -/
def findFrom : Nat → CommandPath → List String → CommandPath × List String
  | 0, p, words => (p, words)
  | fuel + 1, p, words =>
    match commandWords p.searchFlags words with
    | [] => (p, words)
    | next :: _ =>
      match p.last.subcommands.find? (·.name == next) with
      | some sub => findFrom fuel (p ++ [sub]) (withoutWord p.searchFlags next words)
      | none => (p, words)

/-- Finds the command that a line names, and the words left for it. At the top, a word that
names no command is an error. -/
def find (root : Command) (words : List String) : Except FindError (CommandPath × List String) :=
  let (p, rest) := findFrom (words.length + 1) [root] words
  let c := p.last
  if c.arity == .unchecked && !c.subcommands.isEmpty && p.length == 1 then
    match commandWords p.searchFlags rest with
    | typed :: _ =>
      let hint := match suggestions c typed with
        | [] => ""
        | names => "\n\nDid you mean this?\n" ++ String.join (names.map fun n => "\t" ++ n ++ "\n")
      .error ⟨"unknown command " ++ Quoted.encode typed ++ " for " ++ Quoted.encode p.text ++ hint, p⟩
    | [] => .ok (p, rest)
  else .ok (p, rest)

/-- Checks the arguments left for a command. -/
def checkArity (p : CommandPath) (args : List String) : Except String Unit :=
  match p.last.arity, args with
  | .none, a :: _ => .error ("unknown command " ++ Quoted.encode a ++ " for " ++ Quoted.encode p.text)
  | .exactly n, _ =>
    if args.length == n then .ok ()
    else .error ("accepts " ++ toString n ++ " arg(s), received " ++ toString args.length)
  | _, _ => .ok ()

/-- Blanks. -/
def blanks (n : Nat) : String := String.ofList (List.replicate n ' ')

/-- A text padded with blanks on the right to a width. -/
def padRight (s : String) (width : Nat) : String := s ++ blanks (width - s.length)

/-- A text without trailing blanks and line breaks. -/
def trimEnd (s : String) : String :=
  String.ofList (s.toList.reverse.dropWhile (fun c => c == ' ' || c == '\n' || c == '\t')).reverse

/-- The help lines of flags, sorted by name, their usages aligned one blank past the longest
name column. -/
def flagUsages (flags : List Flag) : String :=
  let sorted := flags.mergeSort fun a b => decide (a.name ≤ b.name)
  let heads := sorted.map fun f =>
    let head := match f.shorthand with
      | some c => "  -" ++ String.singleton c ++ ", --" ++ f.name
      | none => "      --" ++ f.name
    match f.kind.placeholder with
    | some word => head ++ " " ++ word
    | none => head
  let width := (heads.map (·.length + 1)).foldl max 0
  String.join ((sorted.zip heads).map fun (f, head) =>
    let note :=
      if f.default.isEmpty || f.default == f.kind.zero then ""
      else if f.kind == .text then " (default " ++ Quoted.encode f.default ++ ")"
      else " (default " ++ f.default ++ ")"
    head ++ " " ++ blanks (width - head.length) ++ " " ++ f.usage ++ note ++ "\n")

namespace CommandPath

/-- The usage line: the path, what follows the name, and `[flags]`. -/
def useLine (p : CommandPath) : String :=
  let use := if p.last.usage.isEmpty then p.text else p.text ++ " " ++ p.last.usage
  if (use.splitOn "[flags]").length > 1 then use else use ++ " [flags]"

/-- Whether any command under the last one is available. -/
def hasAvailable (p : CommandPath) : Bool := p.last.subcommands.any (·.available)

/-- The usage text of the last command. -/
def usageText (p : CommandPath) : String :=
  let c := p.last
  let width := max 11 ((c.subcommands.map (·.name.length)).foldl max 0)
  let listed := (c.subcommands.filter fun s => s.available || s.name == "help").mergeSort
    fun a b => decide (a.name ≤ b.name)
  "Usage:" ++
    (if c.runnable then "\n  " ++ p.useLine else "") ++
    (if p.hasAvailable then "\n  " ++ p.text ++ " [command]" else "") ++
    (if p.hasAvailable then
      "\n\nAvailable Commands:" ++ String.join (listed.map fun s =>
        "\n  " ++ padRight s.name width ++ " " ++ s.summary)
    else "") ++
    "\n\nFlags:\n" ++ trimEnd (flagUsages p.localFlags) ++
    (if p.inherited.isEmpty then ""
     else "\n\nGlobal Flags:\n" ++ trimEnd (flagUsages p.inherited)) ++
    (if p.hasAvailable then
      "\n\nUse \"" ++ p.text ++ " [command] --help\" for more information about a command."
    else "") ++ "\n"

/-- The help text of the last command: its description, then its usage. -/
def helpText (p : CommandPath) : String :=
  let c := p.last
  let about := trimEnd (if c.description.isEmpty then c.summary else c.description)
  (if about.isEmpty then "" else about ++ "\n\n") ++
    (if c.runnable || !c.subcommands.isEmpty then p.usageText else "")

end CommandPath

end GraphWeave.Cli
