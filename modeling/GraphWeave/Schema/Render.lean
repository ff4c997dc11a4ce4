import GraphWeave.Schema.Basic
import GraphWeave.Text.Quoted

/-!
The schema definition language text of a schema, written as pieces: its tokens and the blanks
between them.
-/

namespace GraphWeave

namespace Schema

/-- A piece of schema text: a token, or a blank between tokens. A value that has no literal is
written as its display text. -/
inductive Piece where
  | punct (c : Char)
  | name (n : String)
  | int (n : Int)
  | float (text : String)
  | string (s : String)
  | block (s : String)
  | raw (text : String)
  | space
  | newline
  | comma
deriving DecidableEq, Repr

/-- A description's characters with each `"""` escaped, from the left. -/
def escapeBlock : List Char → List Char
  | '"' :: '"' :: '"' :: rest => '\\' :: '"' :: '"' :: '"' :: escapeBlock rest
  | c :: rest => c :: escapeBlock rest
  | [] => []

/-- The text of a piece: strings quoted, descriptions as `"""` blocks on lines of their own. -/
def Piece.text : Piece → String
  | .punct c => String.singleton c
  | .name n => n
  | .int n => toString n
  | .float t => t
  | .string s => Quoted.encode s
  | .block s => "\"\"\"\n" ++ String.ofList (escapeBlock s.toList) ++ "\n\"\"\""
  | .raw t => t
  | .space => " "
  | .newline => "\n"
  | .comma => ","

/-- The text of pieces, one after the other. -/
def write (ps : List Piece) : String := String.join (ps.map Piece.text)

/-- Pieces between commas: `a, b`. -/
def listed (items : List (List Piece)) : List Piece := [.comma, .space].intercalate items

/-- Names between a separator: `A & B`, `A | B`. -/
def separated (sep : Char) (names : List String) : List Piece :=
  [.space, .punct sep, .space].intercalate (names.map fun n => [.name n])

/-- Default values are written with floats by their shortest digits, always with a point or an
exponent, e.g. `1.0`, `2.5`, `1e+21`. -/
def renderFloat {f : BinaryFormat} (x : BinaryFloat f) : String :=
  let s := x.render Value.floatStyle
  if s.any (fun c => c == '.' || c == 'e' || c == 'E' || c == 'n') then s else s ++ ".0"

/-- A type reference: `[String!]!`. -/
def typePieces : TypeRef → List Piece
  | .named name => [.name name]
  | .list of => .punct '[' :: typePieces of ++ [.punct ']']
  | .nonNull of => typePieces of ++ [.punct '!']

mutual

/-- A default value as a literal: strings quoted, enum names bare, lists `[a, b]` and maps
`{k: v}` with sorted keys; values of other types by their display text. -/
def valuePieces : Value → List Piece
  | .null => [.name "null"]
  | .bool b => [.name (if b then "true" else "false")]
  | .int _ n => [.int n]
  | .uint _ n => [.int n]
  | .enumLiteral s => [.name s]
  | .str s => [.string s]
  | .double x => [.float (renderFloat x)]
  | .single x => [.float (renderFloat x)]
  | .list items => .punct '[' :: listed (itemPieces items) ++ [.punct ']']
  | .map entries =>
    let sorted := (entryPieces entries).mergeSort fun a b => decide (a.1 ≤ b.1)
    .punct '\x7b' :: listed (sorted.map fun (k, v) => .name k :: .punct ':' :: .space :: v) ++
      [.punct '\x7d']
  | v => [.raw v.display]

def itemPieces : List Value → List (List Piece)
  | [] => []
  | v :: rest => valuePieces v :: itemPieces rest

def entryPieces : List (String × Value) → List (String × List Piece)
  | [] => []
  | (k, v) :: rest => (k, valuePieces v) :: entryPieces rest

end

/-- A description block on a line of its own, or nothing for an empty description. -/
def descriptionPieces (description : String) : List Piece :=
  if description.isEmpty then [] else [.block description, .newline]

/-- ` @deprecated`, with its reason when there is one. -/
def deprecationPieces : Option String → List Piece
  | none => []
  | some "" => [.space, .punct '@', .name "deprecated"]
  | some reason =>
    [.space, .punct '@', .name "deprecated", .punct '(', .name "reason", .punct ':', .space,
      .string reason, .punct ')']

/-- `name: Type = default @deprecated`. -/
def InputValue.pieces (iv : InputValue) : List Piece :=
  .name iv.name :: .punct ':' :: .space :: typePieces iv.type ++
    (match iv.default with
     | some v => .space :: .punct '=' :: .space :: valuePieces v
     | none => []) ++
    deprecationPieces iv.deprecation

/-- An argument list in parentheses, or nothing. -/
def argumentPieces (args : List InputValue) : List Piece :=
  if args.isEmpty then [] else .punct '(' :: listed (args.map InputValue.pieces) ++ [.punct ')']

/-- A field line, after its description. -/
def Field.pieces (f : Field) : List Piece :=
  descriptionPieces f.description ++ .space :: .space :: .name f.name ::
    argumentPieces f.arguments ++ .punct ':' :: .space :: typePieces f.type ++
    deprecationPieces f.deprecation ++ [.newline]

/-- ` implements A & B`, or nothing. -/
def implementsPieces (interfaces : List String) : List Piece :=
  if interfaces.isEmpty then [] else .space :: .name "implements" :: .space :: separated '&' interfaces

/-- The lines of a type's members between braces, with the definition's trailing blank line. -/
def membersPieces (lines : List (List Piece)) : List Piece :=
  .space :: .punct '\x7b' :: .newline :: lines.flatten ++ [.punct '\x7d', .newline, .newline]

/-- The definition of a named type, with its trailing blank line. -/
def NamedType.pieces (t : NamedType) : List Piece :=
  descriptionPieces t.description ++
  match t.kind with
  | .scalar =>
    .name "scalar" :: .space :: .name t.name ::
      (match t.specifiedBy with
       | some url =>
         [.space, .punct '@', .name "specifiedBy", .punct '(', .name "url", .punct ':', .space,
           .string url, .punct ')']
       | none => []) ++ [.newline, .newline]
  | .enum =>
    .name "enum" :: .space :: .name t.name :: membersPieces (t.enumValues.map fun v =>
      descriptionPieces v.description ++ .space :: .space :: .name v.name ::
        deprecationPieces v.deprecation ++ [.newline])
  | .inputObject =>
    .name "input" :: .space :: .name t.name ::
      (if t.oneOf then [.space, .punct '@', .name "oneOf"] else []) ++
      membersPieces (t.inputFields.map fun iv =>
        descriptionPieces iv.description ++ .space :: .space :: iv.pieces ++ [.newline])
  | .object =>
    .name "type" :: .space :: .name t.name :: implementsPieces t.interfaces ++
      membersPieces (t.fields.map Field.pieces)
  | .interface =>
    .name "interface" :: .space :: .name t.name :: implementsPieces t.interfaces ++
      membersPieces (t.fields.map Field.pieces)
  | .union =>
    .name "union" :: .space :: .name t.name :: .space :: .punct '=' :: .space ::
      separated '|' t.possibleTypes ++ [.newline, .newline]

/-- The definition of a directive, with its trailing blank line. -/
def Directive.pieces (d : Directive) : List Piece :=
  descriptionPieces d.description ++ .name "directive" :: .space :: .punct '@' :: .name d.name ::
    argumentPieces d.arguments ++ (if d.repeatable then [.space, .name "repeatable"] else []) ++
    .space :: .name "on" :: .space :: separated '|' d.locations ++ [.newline, .newline]

/-- The `schema { … }` block naming the roots that are present, after the description; nothing
when no root is named. -/
def rootPieces (s : Schema) : List Piece :=
  if s.query.isEmpty && s.mutation.isEmpty && s.subscription.isEmpty then []
  else
    let line (operation name : String) : List Piece :=
      if name.isEmpty then [] else [.space, .space, .name operation, .punct ':', .space, .name name, .newline]
    descriptionPieces s.description ++ .name "schema" :: .space :: .punct '\x7b' :: .newline ::
      line "query" s.query ++ line "mutation" s.mutation ++ line "subscription" s.subscription ++
      [.punct '\x7d', .newline]

/-- The pieces of a schema's text, before its trailing newlines are trimmed. -/
def pieces (s : Schema) : List Piece :=
  let types := (s.types.filter (!·.builtin)).mergeSort fun a b => decide (a.name ≤ b.name)
  let directives := (s.directives.filter (!·.builtin)).mergeSort fun a b => decide (a.name ≤ b.name)
  (types.map NamedType.pieces).flatten ++ (directives.map Directive.pieces).flatten ++ rootPieces s

/-- Drops trailing newlines. -/
def trimNewlines (s : String) : String :=
  String.ofList (s.toList.reverse.dropWhile (· == '\n')).reverse

/-- The schema definition language text of a schema. -/
def render (s : Schema) : String :=
  trimNewlines (write s.pieces) ++ "\n"

/-- The text of a schema that may be absent; an absent one has none. -/
def renderOf : Option Schema → String
  | none => ""
  | some s => s.render

end Schema

end GraphWeave
