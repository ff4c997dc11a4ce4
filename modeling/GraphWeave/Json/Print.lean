import GraphWeave.Json.Basic
import GraphWeave.Text.Quoted

/-!
JSON text. Strings escape quote, backslash and control characters, and also `<`, `>`, `&`,
U+2028 and U+2029, so that the text is safe inside HTML. Non-integral numbers are written
positionally from `1e-6` up to `1e21` and with an exponent outside.
-/

namespace GraphWeave.Json

/-- Non-integral numbers: positional when the leading digit's exponent is in `[-6, 21)`. -/
def numberStyle : FloatStyle := ⟨-6, 21, 1⟩

/-- Text of a number. -/
def renderNumber (n : JsonNumber) : String :=
  let sign := if n.negative then "-" else ""
  if n.integral && n.exponent == 0 then sign ++ toString n.digits
  else sign ++ (Decimal.normalize ⟨n.digits, n.exponent⟩).render numberStyle

/-- The escaped form of one character inside a string. -/
def escapeChar (c : Char) : String :=
  if c == '"' then "\\\""
  else if c == '\\' then "\\\\"
  else if c == '\n' then "\\n"
  else if c == '\r' then "\\r"
  else if c == '\t' then "\\t"
  else if c == '\x08' then "\\b"
  else if c == '\x0c' then "\\f"
  else if c.toNat < 0x20 || c == '<' || c == '>' || c == '&' || c.toNat == 0x2028 || c.toNat == 0x2029 then
    "\\u" ++ Quoted.hexDigits c.toNat 4
  else String.singleton c

/-- A string literal. -/
def renderString (s : String) : String :=
  "\"" ++ String.join (s.toList.map escapeChar) ++ "\""

mutual

/-- Compact text: no blank between tokens. -/
def render : Json → String
  | .null => "null"
  | .bool b => if b then "true" else "false"
  | .num n => renderNumber n
  | .str s => renderString s
  | .arr items => "[" ++ ",".intercalate (renderItems items) ++ "]"
  | .obj members => "\x7b" ++ ",".intercalate (renderMembers members) ++ "\x7d"

/-- Texts of the items of an array. -/
def renderItems : List Json → List String
  | [] => []
  | v :: rest => render v :: renderItems rest

/-- Texts of the members of an object. -/
def renderMembers : List (String × Json) → List String
  | [] => []
  | (k, v) :: rest => (renderString k ++ ":" ++ render v) :: renderMembers rest

end

mutual

/-- Indented text: every member and item on a line of its own, two blanks per level. Empty
arrays and objects stay on one line. -/
def renderIndented (indent : String) : Json → String
  | .arr [] => "[]"
  | .obj [] => "\x7b\x7d"
  | .arr items =>
    "[\n" ++ ",\n".intercalate (renderItemsIndented (indent ++ "  ") items) ++ "\n" ++ indent ++ "]"
  | .obj members =>
    "\x7b\n" ++ ",\n".intercalate (renderMembersIndented (indent ++ "  ") members) ++ "\n" ++
      indent ++ "\x7d"
  | j => render j

/-- Lines of the items of an indented array. -/
def renderItemsIndented (indent : String) : List Json → List String
  | [] => []
  | v :: rest => (indent ++ renderIndented indent v) :: renderItemsIndented indent rest

/-- Lines of the members of an indented object. -/
def renderMembersIndented (indent : String) : List (String × Json) → List String
  | [] => []
  | (k, v) :: rest =>
    (indent ++ renderString k ++ ": " ++ renderIndented indent v) :: renderMembersIndented indent rest

end

mutual

/-- Orders the members of every object by key, as maps are written. -/
def sortKeys : Json → Json
  | .arr items => .arr (sortKeysItems items)
  | .obj members => .obj ((sortKeysMembers members).mergeSort fun a b => decide (a.1 ≤ b.1))
  | j => j

/-- `sortKeys` on each item. -/
def sortKeysItems : List Json → List Json
  | [] => []
  | v :: rest => sortKeys v :: sortKeysItems rest

/-- `sortKeys` on each member's value. -/
def sortKeysMembers : List (String × Json) → List (String × Json)
  | [] => []
  | (k, v) :: rest => (k, sortKeys v) :: sortKeysMembers rest

end

end GraphWeave.Json
