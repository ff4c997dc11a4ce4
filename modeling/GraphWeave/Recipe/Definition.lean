import GraphWeave.Recipe.Resolve
import GraphWeave.Definition.Basic
import GraphWeave.Value.Json

/-!
Definitions read from JSON descriptions.
-/

namespace GraphWeave.Recipe

/-- A string member, empty when absent or not a string. -/
def text (j : Json) (key : String) : String := (j.getStr? key).getD ""

/-- A member that must be a string. -/
def requireString (j : Json) (key : String) : Except String String :=
  match j.get? key with
  | some (.str s) => .ok s
  | _ => .error ("missing string " ++ Quoted.encode key)

/-- A deprecation member: a reason, empty for a bare deprecation. -/
def deprecationOf (j : Json) : Option String := j.getStr? "deprecated"

/-- The string items of an array member. -/
def names (j : Json) (key : String) : List String :=
  (j.items key).filterMap fun x => match x with
    | .str s => some s
    | _ => none

/-- Reads a type in the usual notation. -/
def typeOf (j : Json) : Except String TypeRef :=
  match j.get? "type" with
  | some (.str s) => (TypeRef.parse s).mapError (·.message)
  | _ => .error "missing type"

mutual

/-- A default value: data with enum and typed markers. -/
def defaultValue : Json → Except String Value
  | .arr items => (defaultItems items).map .list
  | .obj members =>
    match (Json.obj members).get? "$enum", (Json.obj members).get? "$go" with
    | some (.str name), _ => .ok (.enumLiteral name)
    | _, some (.str kind) =>
      let v := Value.ofJson (((Json.obj members).get? "v").getD .null)
      typed (v.nesting + 2) kind v
    | _, _ => (defaultMembers members).map fun entries => .map (Json.dedupMembers entries)
  | j => .ok (Value.ofJson j)

/-- Default values of list items. -/
def defaultItems : List Json → Except String (List Value)
  | [] => .ok []
  | j :: rest => do
    let v ← defaultValue j
    let vs ← defaultItems rest
    pure (v :: vs)

/-- Default values of object members. -/
def defaultMembers : List (String × Json) → Except String (List (String × Value))
  | [] => .ok []
  | (k, j) :: rest => do
    let v ← defaultValue j
    let vs ← defaultMembers rest
    pure ((k, v) :: vs)

end

/-- An argument or input field. A null default is no default. -/
def inputValue (j : Json) : Except String Schema.InputValue := do
  let name ← requireString j "name"
  let type ← typeOf j
  let default ← match j.get? "default" with
    | none | some .null => pure none
    | some d => some <$> defaultValue d
  pure { name, type, description := text j "description", default
         deprecation := deprecationOf j }

/-- Input values of an array member. -/
def inputValues (j : Json) (key : String) : Except String (List Schema.InputValue) :=
  (j.items key).mapM inputValue

/-- A resolver recipe for a field: the parent's entry under the key when none is given. -/
def resolveOf (j : Json) (key : String) : Except String Resolve :=
  match j.get? "resolve" with
  | none | some (.str "parent") => .ok (.parent key)
  | some (.str "args") => .ok .args
  | some (.str "selected") => .ok .selected
  | some (.str "path") => .ok .path
  | some (.str "downcast") => .ok .downcast
  | some (.obj members) =>
    let r := Json.obj members
    if r.has "const" then .ok (.const (Value.ofJson ((r.get? "const").getD .null)))
    else if r.has "argAs" then
      match ArgKind.ofName? (text r "as") with
      | some kind => .ok (.argAs (text r "argAs") kind (r.get? "fallback"))
      | none => .error ("unknown argument type " ++ Quoted.encode (text r "as"))
    else if r.has "arg" then .ok (.arg (text r "arg"))
    else if r.has "has" then .ok (.has (text r "has"))
    else if r.has "metadata" then .ok (.metadata (text r "metadata"))
    else if r.has "panic" then .ok (.panic (text r "panic"))
    else .error "unknown resolver recipe"
  | some _ => .error "unknown resolver recipe"

/-- An output field. Fields of interfaces, and fields marked `noResolver`, get no resolver. -/
def field {σ : Type} (withResolver : Bool) (j : Json) : Except String (FieldDef σ) := do
  let name ← requireString j "name"
  let type ← typeOf j
  let arguments ← inputValues j "args"
  let resolver ← if withResolver && !j.flag "noResolver" then
      (fun (r : Resolve) => some r.resolver) <$> resolveOf j ((j.getStr? "key").getD name)
    else pure none
  pure { name, type, resolver, description := text j "description", arguments
         async := j.flag "async", deprecation := deprecationOf j }

/-- Output fields of an array member. -/
def fields {σ : Type} (withResolver : Bool) (j : Json) : Except String (List (FieldDef σ)) :=
  (j.items "fields").mapM (field withResolver)

/-- An object type. -/
def objectDef {σ : Type} (j : Json) : Except String (ObjectDef σ) := do
  let name ← requireString j "name"
  let fs ← fields true j
  let o : ObjectDef σ := { name, description := text j "description", fields := fs }
  pure ((names j "implements").foldl ObjectDef.implement o)

/-- An enum value: a name, or an object with a name and a deprecation reason. Enum values carry
no description. -/
def enumValue (j : Json) : Except String Schema.EnumValue :=
  match j with
  | .str name => .ok { name }
  | .obj _ => do
    let name ← requireString j "name"
    pure { name, deprecation := deprecationOf j }
  | _ => .error "enum value must be a name or an object"

/-- A serializer by name: `sprint` writes a value's display text, `fail` refuses every value. -/
def serializer (scalar : String) : Option Json → Except String (Option (Leaf → Except FieldError Json))
  | none => .ok none
  | some (.str "sprint") => .ok (some fun v => .ok (.str v.display))
  | some (.str "fail") =>
    .ok (some fun v => .error { message := scalar ++ " cannot serialize " ++ v.display })
  | some _ => .error "unknown serializer"

/-- A definition of any kind. -/
def definition {σ : Type} (j : Json) : Except String (Definition σ) := do
  let name ← requireString j "name"
  let description := text j "description"
  match text j "kind" with
  | "object" => .object <$> objectDef j
  | "interface" =>
    let fs ← fields false j
    pure (.interface { name, description, fields := fs, interfaces := names j "implements" })
  | "union" => pure (.union { name, description, members := names j "members" })
  | "enum" =>
    let values ← (j.items "values").mapM enumValue
    pure (.enum { name, description, values })
  | "input" =>
    let fs ← inputValues j "fields"
    pure (.inputObject { name, description, fields := fs, oneOf := j.flag "oneOf" })
  | "scalar" =>
    let serialize ← serializer name (j.get? "serialize")
    pure (.scalar { name, description, specifiedBy := text j "specifiedBy", serialize })
  | kind => .error ("unknown kind " ++ Quoted.encode kind)

end GraphWeave.Recipe
