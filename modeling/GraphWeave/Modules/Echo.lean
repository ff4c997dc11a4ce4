import GraphWeave.Modules.Root

/-!
The echo module: fields that return their arguments. `byBar` takes the one-field input
`BarInput`, `byObject` repeats the text of an `EchoInput`, and one field per built-in scalar
(and one for a list of integers) returns its argument, each with a default.
-/

namespace GraphWeave.Modules

namespace Echo

/-- A member of a decoded JSON object, matched exactly or else without regard to case. -/
def member? (members : List (String × Json)) (key : String) : Option Json :=
  match members.reverse.find? (·.1 == key) with
  | some (_, j) => some j
  | none => (members.reverse.find? (·.1.toLower == key.toLower)).map (·.2)

/-- The one-field input: `a` or `b`. -/
structure BarInput where
  a : Option Int
  b : Option Int

/-- An optional integer member: null and absent are none. -/
def optionalInt (members : List (String × Json)) (key : String) : Option (Option Int) :=
  match member? members key with
  | none | some .null => some none
  | some j => (FromArgument.decodeInt 64 j).map some

instance : FromArgument BarInput where
  direct? _ := none
  decode?
    | .obj ms => do
      let a ← optionalInt ms "a"
      let b ← optionalInt ms "b"
      pure ⟨a, b⟩
    | .null => some ⟨none, none⟩
    | _ => none

/-- `a=n` or `b=n`, whichever is given. -/
def BarInput.text (i : BarInput) : String :=
  match i.a, i.b with
  | some n, _ => "a=" ++ toString n
  | none, some n => "b=" ++ toString n
  | none, none => ""

/-- A text and how often to repeat it. -/
structure EchoInput where
  text : String
  «repeat» : Int

instance : FromArgument EchoInput where
  direct? _ := none
  decode?
    | .obj ms => do
      let text ← match member? ms "text" with
        | none => some ""
        | some j => FromArgument.decode? j
      let count ← match member? ms "repeat" with
        | none => some 0
        | some j => FromArgument.decodeInt 64 j
      pure ⟨text, count⟩
    | .null => some ⟨"", 0⟩
    | _ => none

/-- `byBar(input)`: which field was given, and its value. -/
def byBar (rc : ResolverContext) : Except Failure FieldValue := do
  let i ← rc.arg (α := BarInput) "input"
  pure (FieldValue.ofValue (.str i.text))

/-- `byObject(input)`: the text repeated; a negative count is an error. -/
def byObject (rc : ResolverContext) : Except Failure FieldValue := do
  let i ← rc.argOr "input" (EchoInput.mk "default" 1)
  if i.repeat < 0 then
    .error (.fail ("repeat must not be negative, got " ++ toString i.repeat))
  else pure (FieldValue.ofValue (.str (String.join (List.replicate i.repeat.toNat i.text))))

/-- A field returning its argument `input` of a built-in scalar type, with a default. -/
def scalar {σ : Type} {α : Type} [FromArgument α] (name type : String) (fallback : α)
    (toValue : α → Value) : FieldDef σ :=
  (FieldDef.ofResolver name (.nonNull (.named type)) (Resolver.ofExcept fun rc => do
    let v ← rc.argOr "input" fallback
    pure (FieldValue.ofValue (toValue v)))).argument
    { name := "input", type := .named type, default := some (toValue fallback) }

/-- `byList(input)`: the integers given. -/
def byList (rc : ResolverContext) : Except Failure FieldValue := do
  let xs ← rc.arg (α := List Int) "input"
  pure (FieldValue.ofList (xs.map fun n => FieldValue.ofValue (.int .word n)))

/-- Registers `BarInput` and `EchoInput`, and adds the echo fields to `Query`. -/
def module {σ : Type} : Module σ where
  name := "echo"
  register := do
    Registry.registerInputObject
      { name := "BarInput", oneOf := true
        fields := [{ name := "a", type := .named "Int" }, { name := "b", type := .named "Int" }] }
    Registry.registerInputObject
      { name := "EchoInput"
        fields := [{ name := "text", type := .nonNull (.named "String"), default := some (.str "default") },
          { name := "repeat", type := .named "Int", default := some (.int .word 1) }] }
    Registry.injectFields "Query" "echo"
      [some ((FieldDef.ofResolver "byBar" (.nonNull (.named "String")) (Resolver.ofExcept byBar)).argument
          { name := "input", type := .nonNull (.named "BarInput") }),
       some ((FieldDef.ofResolver "byObject" (.nonNull (.named "String"))
          (Resolver.ofExcept byObject)).argument
          { name := "input", type := .named "EchoInput", default := some (.map [("text", .str "default")]) }),
       some (scalar "byString" "String" "hello" Value.str),
       some (scalar "byInt" "Int" (42 : Int) (.int .word)),
       some (scalar "byFloat" "Float" (BinaryFloat.ofInt 1 : Binary64) .double),
       some (scalar "byBool" "Boolean" true .bool),
       some (scalar "byId" "ID" "id-1" Value.str),
       some ((FieldDef.ofResolver "byList" (.nonNull (.list (.nonNull (.named "Int"))))
          (Resolver.ofExcept byList)).argument
          { name := "input", type := .nonNull (.list (.nonNull (.named "Int")))
            default := some (.list [.int .word 1, .int .word 2, .int .word 3]) })]

end Echo

end GraphWeave.Modules
