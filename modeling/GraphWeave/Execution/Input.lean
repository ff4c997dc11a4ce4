import GraphWeave.Schema.Basic
import GraphWeave.Document.Basic
import GraphWeave.Json.Basic
import GraphWeave.Text.Quoted

/-!
Input values: literals of a document read as host values, and host values coerced to the input types
of a schema.
-/

namespace GraphWeave

namespace Literal

mutual

/-- The host value of a literal, with variables read from `vars`; a variable not given is
null. -/
def toValue (vars : List (String × Value)) : Literal → Value
  | .variable name => (Value.lookup vars name).getD .null
  | .int raw =>
    match parseInteger? raw with
    | some n => if -Int.pow 2 63 ≤ n ∧ n < Int.pow 2 63 then .int .word n else floatValue raw
    | none => floatValue raw
  | .float raw => floatValue raw
  | .string s => .str s
  | .boolean b => .bool b
  | .null => .null
  | .enum name => .enumLiteral name
  | .list items => .list (itemsToValue vars items)
  | .object fields => .map (Json.dedupMembers (fieldsToValue vars fields))

/-- Values of list items. -/
def itemsToValue (vars : List (String × Value)) : List Literal → List Value
  | [] => []
  | l :: rest => toValue vars l :: itemsToValue vars rest

/-- Entries of an object literal; members holding a variable that was not given are left
out. -/
def fieldsToValue (vars : List (String × Value)) : List (String × Literal) → List (String × Value)
  | [] => []
  | (k, l) :: rest =>
    match l with
    | .variable name =>
      if (Value.lookup vars name).isSome then (k, toValue vars l) :: fieldsToValue vars rest
      else fieldsToValue vars rest
    | _ => (k, toValue vars l) :: fieldsToValue vars rest

/-- The double nearest to a number's text. -/
def floatValue (raw : String) : Value :=
  match DecimalText.parse? raw with
  | some d => .double (d.toBinary .binary64)
  | none => .double .zero

end

end Literal

/-- Why a value does not fit an input type. -/
inductive InputError where
  | nullForNonNull
  | atIndex (index : Nat) (cause : InputError)
  | unknownType (name : String)
  | notInputType (name : String)
  | nonInteger (v : Value)
  | intRange (n : Int)
  | mismatch (v : Value) (type : String)
  | notEnum (v : Value) (enum : String)
  | unknownEnumValue (name enum : String)
  | notObject (type : String) (v : Value)
  | undefinedField (field type : String)
  | oneOfCount (type : String) (count : Nat)
  | oneOfNull (field type : String)
  | fieldDefault (field : String) (cause : InputError)
  | missingField (field : String) (type : TypeRef)
  | atField (field : String) (cause : InputError)
  /-- Input objects entered through defaults that never end. -/
  | tooDeep (type : String)
deriving Repr, Inhabited

namespace InputError

/-- The message of an input error. -/
def message : InputError → String
  | .nullForNonNull => "cannot provide null for non-null type"
  | .atIndex i cause => "index " ++ toString i ++ ": " ++ cause.message
  | .unknownType name => "unknown input type " ++ name
  | .notInputType name => name ++ " is not an input type"
  | .nonInteger v => "cannot coerce non-integer " ++ v.display ++ " to Int"
  | .intRange n => "Int cannot represent value " ++ toString n
  | .mismatch v type => "cannot coerce " ++ v.display ++ " (" ++ v.typeName ++ ") to " ++ type
  | .notEnum v enum =>
    "cannot coerce " ++ v.display ++ " (" ++ v.typeName ++ ") to enum " ++ enum
  | .unknownEnumValue name enum =>
    "value " ++ Quoted.encode name ++ " does not exist in enum " ++ enum
  | .notObject type v => "expected an object for " ++ type ++ ", got " ++ v.typeName
  | .undefinedField field type => "field '" ++ field ++ "' is not defined by type " ++ type
  | .oneOfCount type n =>
    "exactly one field must be supplied for oneOf input " ++ type ++ ", got " ++ toString n
  | .oneOfNull field type =>
    "field '" ++ field ++ "' of oneOf input " ++ type ++ " must not be null"
  | .fieldDefault field cause => "default of field '" ++ field ++ "': " ++ cause.message
  | .missingField field type =>
    "field '" ++ field ++ "' of required type " ++ type.render ++ " was not provided"
  | .atField field cause => "field '" ++ field ++ "': " ++ cause.message
  | .tooDeep type => "input " ++ type ++ " nests its defaults without end"

end InputError

namespace Coerce

/-- Integers within 32 bits; whole floats are converted as the hardware does. -/
def asInt (v : Value) : Except InputError Value :=
  let n? : Except InputError Int :=
    match v with
    | .int .word n | .int .w32 n | .int .w64 n => .ok n
    | .double x => if x.isWhole then .ok x.toInt64 else .error (.nonInteger v)
    | .single x => if x.isWhole then .ok x.toInt64 else .error (.nonInteger v)
    | _ => .error (.mismatch v "Int")
  match n? with
  | .ok n => if -Int.pow 2 31 ≤ n ∧ n < Int.pow 2 31 then .ok (.int .word n) else .error (.intRange n)
  | .error e => .error e

/-- Floats and integers, as doubles. -/
def asFloat (v : Value) : Except InputError Value :=
  match v with
  | .double x => .ok (.double x)
  | .single x => .ok (.double x.convert)
  | .int .word n | .int .w32 n | .int .w64 n => .ok (.double (BinaryFloat.ofInt n))
  | _ => .error (.mismatch v "Float")

/-- Strings only. -/
def asString (v : Value) : Except InputError Value :=
  match v with
  | .str s => .ok (.str s)
  | _ => .error (.mismatch v "String")

/-- Booleans only. -/
def asBoolean (v : Value) : Except InputError Value :=
  match v with
  | .bool b => .ok (.bool b)
  | _ => .error (.mismatch v "Boolean")

/-- Strings, and integers and whole doubles in decimal. -/
def asId (v : Value) : Except InputError Value :=
  match v with
  | .str s => .ok (.str s)
  | .int .word n | .int .w32 n | .int .w64 n => .ok (.str (toString n))
  | .double x => if x.isWhole then .ok (.str (toString x.toInt64)) else .error (.mismatch v "ID")
  | _ => .error (.mismatch v "ID")

/-- A value name of the enum, given as an enum literal or a string. -/
def asEnum (t : Schema.NamedType) (v : Value) : Except InputError Value :=
  let name? := match v with
    | .enumLiteral s => some s
    | .str s => some s
    | _ => none
  match name? with
  | none => .error (.notEnum v t.name)
  | some name => if t.hasEnumValue name then .ok (.str name) else .error (.unknownEnumValue name t.name)

/-- Custom scalars take any value; an enum literal becomes its name. -/
def passThrough (v : Value) : Value :=
  match v with
  | .enumLiteral s => .str s
  | _ => v

end Coerce

mutual

/-- Coerces a value to an input type. Input object fields are coerced against their own
declared types, so `fuel` bounds how many input objects are entered. -/
def coerceInput (s : Schema) (fuel : Nat) (v : Value) (t : TypeRef) : Except InputError Value :=
  match t with
  | .nonNull inner =>
    match v with
    | .null => .error .nullForNonNull
    | _ => coerceInput s fuel v inner
  | .list inner =>
    match v with
    | .null => .ok .null
    | .list items =>
      match coerceItems s fuel inner 0 items with
      | .ok vs => .ok (.list vs)
      | .error e => .error e
    | _ =>
      match coerceInput s fuel v inner with
      | .ok x => .ok (.list [x])
      | .error e => .error e
  | .named name =>
    match v with
    | .null => .ok .null
    | _ =>
      match name with
      | "Int" => Coerce.asInt v
      | "Float" => Coerce.asFloat v
      | "String" => Coerce.asString v
      | "Boolean" => Coerce.asBoolean v
      | "ID" => Coerce.asId v
      | _ =>
        match s.type? name with
        | none => .error (.unknownType name)
        | some t =>
          match t.kind with
          | .enum => Coerce.asEnum t v
          | .inputObject => coerceObject s fuel t v
          | .scalar => .ok (Coerce.passThrough v)
          | _ => .error (.notInputType name)
termination_by (fuel, sizeOf t, 0, 0)

/-- Coerces list items, reporting the index of the first that fails. -/
def coerceItems (s : Schema) (fuel : Nat) (inner : TypeRef) (index : Nat) (items : List Value) :
    Except InputError (List Value) :=
  match items with
  | [] => .ok []
  | v :: rest =>
    match coerceInput s fuel v inner with
    | .error e => .error (.atIndex index e)
    | .ok x =>
      match coerceItems s fuel inner (index + 1) rest with
      | .ok xs => .ok (x :: xs)
      | .error e => .error e
termination_by (fuel, sizeOf inner, items.length + 1, 0)

/-- Coerces a map to an input object type: no undeclared field, the one-field rule, then each
declared field in order, from the map or its default. -/
def coerceObject (s : Schema) (fuel : Nat) (t : Schema.NamedType) (v : Value) :
    Except InputError Value :=
  match v with
  | .map entries =>
    match entries.find? (fun (k, _) => (t.inputField? k).isNone) with
    | some (k, _) => .error (.undefinedField k t.name)
    | none =>
      let oneOf : Except InputError Unit :=
        if t.oneOf then
          match entries with
          | [(k, x)] => if x.isNull then .error (.oneOfNull k t.name) else .ok ()
          | _ => .error (.oneOfCount t.name entries.length)
        else .ok ()
      match oneOf with
      | .error e => .error e
      | .ok () =>
        match coerceFields s fuel t.name entries t.inputFields with
        | .ok out => .ok (.map out)
        | .error e => .error e
  | _ => .error (.notObject t.name v)
termination_by (fuel, 0, 1, 0)

/-- Coerces the declared fields of an input object in order. -/
def coerceFields (s : Schema) (fuel : Nat) (type : String) (entries : List (String × Value))
    (fields : List Schema.InputValue) : Except InputError (List (String × Value)) :=
  match fields with
  | [] => .ok []
  | f :: rest =>
    match fuel with
    | 0 => .error (.tooDeep type)
    | fuel' + 1 =>
      let this : Except InputError (Option Value) :=
        match Value.lookup entries f.name with
        | some raw =>
          match coerceInput s fuel' raw f.type with
          | .ok x => .ok (some x)
          | .error e => .error (.atField f.name e)
        | none =>
          match f.default with
          | some d =>
            match coerceInput s fuel' d f.type with
            | .ok x => .ok (some x)
            | .error e => .error (.fieldDefault f.name e)
          | none => if f.type.isNonNull then .error (.missingField f.name f.type) else .ok none
      match this with
      | .error e => .error e
      | .ok x =>
        match coerceFields s (fuel' + 1) type entries rest with
        | .ok out => .ok (match x with | some x => (f.name, x) :: out | none => out)
        | .error e => .error e
termination_by (fuel, 0, 0, fields.length)

end

mutual

/-- How deep lists, maps and records nest in a value. -/
def Value.nesting : Value → Nat
  | .list items => itemsNesting items + 1
  | .map entries => entriesNesting entries + 1
  | .ref target => target.nesting + 1
  | .record _ fields => entriesNesting fields + 1
  | _ => 0

/-- The deepest nesting of list items. -/
def itemsNesting : List Value → Nat
  | [] => 0
  | v :: rest => max v.nesting (itemsNesting rest)

/-- The deepest nesting of entry values. -/
def entriesNesting : List (String × Value) → Nat
  | [] => 0
  | (_, v) :: rest => max v.nesting (entriesNesting rest)

end

/-- A bound on how many input objects coercion enters through defaults: each default of an
input field counts its own nesting and one more. -/
def Schema.defaultNesting (s : Schema) : Nat :=
  s.types.foldl (fun acc t =>
    t.inputFields.foldl (fun acc f =>
      match f.default with
      | some d => acc + d.nesting + 1
      | none => acc) acc) 0

/-- Coerces a value to an input type, with enough fuel for the value and every default. -/
def Schema.coerce (s : Schema) (v : Value) (t : TypeRef) : Except InputError Value :=
  coerceInput s (v.nesting + s.defaultNesting + 1) v t

end GraphWeave
