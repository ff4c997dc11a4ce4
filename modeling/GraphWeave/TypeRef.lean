/-!
References to types as written in documents and schemas: a named type, a list of a type, or
a non-null type, written `Name`, `[T]` and `T!`.
-/

namespace GraphWeave

/-- A reference to a type. -/
inductive TypeRef where
  | named (name : String)
  | list (of : TypeRef)
  | nonNull (of : TypeRef)
deriving DecidableEq, Repr, Inhabited

namespace TypeRef

/-- The written form: `[String!]!`. -/
def render : TypeRef → String
  | .named name => name
  | .list of => "[" ++ of.render ++ "]"
  | .nonNull of => of.render ++ "!"

/-- Whether the reference is non-null. -/
def isNonNull : TypeRef → Bool
  | .nonNull _ => true
  | _ => false

/-- Whether the reference is a list, possibly non-null. -/
def isList : TypeRef → Bool
  | .list _ => true
  | .nonNull (.list _) => true
  | _ => false

/-- Removes one wrapper; a named type stays as it is. -/
def unwrap : TypeRef → TypeRef
  | .list of => of
  | .nonNull of => of
  | t => t

/-- The innermost named type. -/
def namedType : TypeRef → String
  | .named name => name
  | .list of => of.namedType
  | .nonNull of => of.namedType

/-- What the helpers tell of a reference that may be absent: whether it is non-null, whether it
is a list, the type it names, its written form, and the written form of what it wraps. -/
structure Info where
  nonNull : Bool
  list : Bool
  named : String
  written : String
  unwrapped : Option String

/-- The helpers on a reference that may be absent: an absent one is neither non-null nor a list,
names nothing, is written as nothing and wraps nothing. -/
def info : Option TypeRef → Info
  | some t => ⟨t.isNonNull, t.isList, t.namedType, t.render, some t.unwrap.render⟩
  | none => ⟨false, false, "", "", none⟩

/-- A non-null wrapper; wrapping a non-null reference again changes nothing. -/
def required (t : TypeRef) : TypeRef := if t.isNonNull then t else .nonNull t

/-- Why a written type is not one. -/
inductive ParseError where
  | unclosedList
  | emptyName
deriving DecidableEq, Repr

/-- The message of a type notation error. -/
def ParseError.message : ParseError → String
  | .unclosedList => "unclosed list type"
  | .emptyName => "empty type name"

/-- Reads the notation from its characters; each step removes a character, so the length
bounds the steps. -/
def parseChars : Nat → List Char → Except ParseError TypeRef
  | 0, _ => .error .emptyName
  | fuel + 1, cs =>
    if cs.getLast? == some '!' then
      match parseChars fuel cs.dropLast with
      | .ok t => .ok (.nonNull t)
      | .error e => .error e
    else
      match cs with
      | '[' :: rest =>
        if rest.getLast? == some ']' then
          match parseChars fuel rest.dropLast with
          | .ok t => .ok (.list t)
          | .error e => .error e
        else .error .unclosedList
      | [] => .error .emptyName
      | _ => .ok (.named (String.ofList cs))

/-- Reads the notation `Name`, `[T]` and a trailing `!`, as in `[Int!]!`. -/
def parse (s : String) : Except ParseError TypeRef := parseChars (s.length + 1) s.toList

end TypeRef

end GraphWeave
