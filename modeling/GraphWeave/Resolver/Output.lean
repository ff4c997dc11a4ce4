import GraphWeave.Resolver.Context

/-! Output values, what resolvers build before it becomes a field value. A value is consumed
(owned) or referenced where its holder keeps it; options, results and lists hold their contents
either as open values or at their own type, and a reference reaches them accordingly. -/

namespace GraphWeave

/-- How a container holds its contents: as open values, or at their own type. -/
inductive Held where
  | any
  | exact
deriving Repr, DecidableEq, Inhabited

inductive Output where
  | host (v : Value)
  | some (held : Held) (x : Output)
  | none
  | ok (held : Held) (x : Output)
  | err (message : String)
  | list (held : Held) (items : List Output)
  | id (s : String)
  /-- A value tagged with its object type name; a borrowed box holds a reference. -/
  | box (value : Value) (typeName : String) (borrowed : Bool)
  | field (fv : FieldValue)
deriving Repr, Inhabited

namespace Output

/-- Scalars that are copied into a leaf value: strings, booleans, machine integers, floats, and
identifiers as their string. -/
def scalar? : Value → Option FieldValue
  | .str s => Option.some (FieldValue.ofValue (.str s))
  | .bool b => Option.some (FieldValue.ofValue (.bool b))
  | .int w n => Option.some (FieldValue.ofValue (.int w n))
  | .uint w n => Option.some (FieldValue.ofValue (.uint w n))
  | .double x => Option.some (FieldValue.ofValue (.double x))
  | .single x => Option.some (FieldValue.ofValue (.single x))
  | .id s => Option.some (FieldValue.ofValue (.str s))
  | _ => Option.none

/-- The error of a box without a type name. -/
def missingTypeName : FieldError := { message := "any box has no type name" }

/-- Resolves a box: borrowed or owned, with its type name. -/
def boxed (value : Value) (typeName : String) (borrowed : Bool) : Except FieldError FieldValue :=
  if typeName.isEmpty then .error missingTypeName
  else if borrowed then .ok (FieldValue.ofBorrowed value typeName)
  else .ok (FieldValue.ofOwned value typeName)

/-- Consumes an output value. -/
def owned : Output → Except FieldError FieldValue
  | .host v =>
    match scalar? v with
    | Option.some fv => .ok fv
    | Option.none => .error { message := v.typeName ++ " cannot be resolved as an owned value" }
  | .some _ x => owned x
  | .none => .ok FieldValue.none
  | .ok _ x => owned x
  | .err message => .error { message }
  | .list _ items => .ok (FieldValue.ofList (ownedItems items))
  | .id s => .ok (FieldValue.ofValue (.str s))
  | .box value typeName borrowed => boxed value typeName borrowed
  | .field fv => .ok fv
where
  /-- Items consumed independently; a failing item becomes an error item. -/
  ownedItems : List Output → List FieldValue
    | [] => []
    | x :: rest =>
      (match owned x with
       | .ok fv => fv
       | .error e => FieldValue.ofError e) :: ownedItems rest

/-- Resolves a reference to an open value: scalars are copied, consumable values are consumed,
and anything else is refused. -/
def referencedAny (x : Output) : Except FieldError FieldValue :=
  let refused : Except FieldError FieldValue :=
    .error { message := "*interface \x7b\x7d cannot be resolved as a reference" }
  match x with
  | .host v =>
    match scalar? v with
    | Option.some fv => .ok fv
    | Option.none => refused
  | .field _ => refused
  | _ => owned x

/-- Resolves a reference to a value at its own type: containers reference their contents as
they hold them, boxes resolve as boxes, scalars and identifiers are copied, and a reference to a
field value or to any other host value is refused. -/
def referenced : Output → Except FieldError FieldValue
  | .host v =>
    match scalar? v with
    | Option.some fv => .ok fv
    | Option.none => .error { message := "*" ++ v.typeName ++ " cannot be resolved as a reference" }
  | .some .any x | .ok .any x => referencedAny x
  | .some .exact x | .ok .exact x => referenced x
  | .none => .ok FieldValue.none
  | .err message => .error { message }
  | .list .any items =>
    .ok (FieldValue.ofList (items.map fun x =>
      match referencedAny x with
      | .ok fv => fv
      | .error e => FieldValue.ofError e))
  | .list .exact items => .ok (FieldValue.ofList (exactItems items))
  | .box value typeName borrowed => boxed value typeName borrowed
  | .id s => .ok (FieldValue.ofValue (.str s))
  | .field _ => .error { message := "*dynamic.FieldValue cannot be resolved as a reference" }
where
  /-- Items held at their own type, each referenced independently. -/
  exactItems : List Output → List FieldValue
    | [] => []
    | x :: rest =>
      (match referenced x with
       | .ok fv => fv
       | .error e => FieldValue.ofError e) :: exactItems rest

/-- Resolves a reference to a value held as a container holds it. -/
def referencedAs : Held → Output → Except FieldError FieldValue
  | .any, x => referencedAny x
  | .exact, x => referenced x

end Output

end GraphWeave
