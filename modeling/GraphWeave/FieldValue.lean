import GraphWeave.Value.Basic

/-!
Field values: what a resolver returns for one field.
-/

namespace GraphWeave

/-- An error raised for a field: its message and the extensions it reports. -/
structure FieldError where
  message : String
  extensions : List (String × Value) := []
deriving Repr, Inhabited

/-- A field value; the last argument of each constructor is the type name it carries. -/
inductive FieldValue where
  | null (typeName : String)
  | value (v : Value) (typeName : String)
  | owned (v : Value) (typeName : String)
  /-- A reference into data an enclosing value holds: `ref` points to it. -/
  | borrowed (ref : Value) (typeName : String)
  | list (items : List FieldValue) (typeName : String)
  | itemError (e : FieldError) (typeName : String)
deriving Repr, Inhabited

namespace FieldValue

/-- Null without a type name. -/
def none : FieldValue := .null ""

/-- A leaf value; an absent one is null. -/
def ofValue (v : Value) : FieldValue := if v.isAbsent then none else .value v ""

/-- An owned value; an absent one is null. -/
def ofOwned (v : Value) (typeName : String) : FieldValue :=
  if v.isAbsent then none else .owned v typeName

/-- A borrowed reference; an absent one is null. -/
def ofBorrowed (ref : Value) (typeName : String) : FieldValue :=
  if ref.isAbsent then none else .borrowed ref typeName

/-- A list of field values. -/
def ofList (items : List FieldValue) : FieldValue := .list items ""

/-- The error of one list item. -/
def ofError (e : FieldError) : FieldValue := .itemError e ""

/-- The type name the value carries. -/
def typeName : FieldValue → String
  | .null t | .value _ t | .owned _ t | .borrowed _ t | .list _ t | .itemError _ t => t

/-- The same value carrying another type name. -/
def withTypeName (fv : FieldValue) (t : String) : FieldValue :=
  match fv with
  | .null _ => .null t
  | .value v _ => .value v t
  | .owned v _ => .owned v t
  | .borrowed r _ => .borrowed r t
  | .list items _ => .list items t
  | .itemError e _ => .itemError e t

/-- The host value held, for leaf, owned and borrowed values. -/
def host? : FieldValue → Option Value
  | .value v _ | .owned v _ | .borrowed v _ => some v
  | _ => Option.none

/-- Whether the value is null. -/
def isNull : FieldValue → Bool
  | .null _ => true
  | _ => false

/-- The number of the value's kind, as it appears in its display text. -/
def kindNumber : FieldValue → Nat
  | .null _ => 0
  | .value .. => 1
  | .owned .. => 2
  | .borrowed .. => 3
  | .list .. => 4
  | .itemError .. => 5

end FieldValue

/-- A field value as the executor completes it. -/
inductive Resolved where
  | null
  /-- A leaf, owned or borrowed field value. -/
  | single (fv : FieldValue)
  | list (items : List Resolved)
  | itemError (e : FieldError)
deriving Repr, Inhabited

namespace FieldValue

/-- The resolved view of a field value. -/
def toResolved : FieldValue → Resolved
  | .null _ => .null
  | .list items _ => .list (items.attach.map fun ⟨item, _⟩ => item.toResolved)
  | .itemError e _ => .itemError e
  | fv => .single fv

/-- The display text of a single field value inside a list: its kind number, host value, type
name, items and error, as `{1 5  [] <nil>}`. -/
def displayFields (fv : FieldValue) : String :=
  let host := match fv.host? with
    | some v => v.display
    | Option.none => "<nil>"
  let err := match fv with
    | .itemError e _ => e.message
    | _ => "<nil>"
  "\x7b" ++ toString fv.kindNumber ++ " " ++ host ++ " " ++ fv.typeName ++ " [] " ++ err ++ "\x7d"

end FieldValue

namespace Resolved

/-- Whether the value is null. -/
def isNull : Resolved → Bool
  | .null => true
  | _ => false

/-- The display text of a resolved value, lists as `[a b]`. -/
def display : Resolved → String
  | .null => "<nil>"
  | .single fv => fv.displayFields
  | .list items => "[" ++ " ".intercalate (items.attach.map fun ⟨item, _⟩ => item.display) ++ "]"
  | .itemError e => e.message

/-- The name of the host type of a resolved value. -/
def typeName : Resolved → String
  | .null => "<nil>"
  | .single _ => "dynamic.FieldValue"
  | .list _ => "[]interface \x7b\x7d"
  | .itemError _ => "executor.ItemError"

end Resolved

end GraphWeave
