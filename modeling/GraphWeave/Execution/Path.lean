import GraphWeave.Json.Basic

/-!
Response paths: the keys and list indexes from the root of a response to a value.
-/

namespace GraphWeave

/-- A step of a response path. -/
inductive PathSegment where
  | key (name : String)
  | index (i : Nat)
deriving DecidableEq, Repr, Inhabited

/-- A response path, from the root. -/
abbrev Path := List PathSegment

namespace PathSegment

/-- A key as a string, an index as a number. -/
def toJson : PathSegment → Json
  | .key name => .str name
  | .index i => Json.int i

/-- A key as itself, an index as `[i]`. -/
def text : PathSegment → String
  | .key name => name
  | .index i => "[" ++ toString i ++ "]"

end PathSegment

namespace Path

/-- The path as a JSON array. -/
def toJson (p : Path) : Json := .arr (p.map PathSegment.toJson)

/-- Segments joined by dots: `list.[1].name`. -/
def dotted (p : Path) : String := ".".intercalate (p.map PathSegment.text)

/-- Keys joined by dots, indexes attached: `list[1].name`. -/
def compact (p : Path) : String :=
  let step (acc : String × Bool) (s : PathSegment) : String × Bool :=
    match s with
    | .index _ => (acc.1 ++ s.text, false)
    | .key name => ((if acc.2 then acc.1 else acc.1 ++ ".") ++ name, false)
  (p.foldl step ("", true)).1

end Path

end GraphWeave
