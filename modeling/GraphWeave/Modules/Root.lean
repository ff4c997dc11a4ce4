import GraphWeave.Registry.Finish

/-!
The root module: the `Query` type with a greeting field, and an empty `Mutation` type that other
modules extend. The root value of every request holds the greeting.
-/

namespace GraphWeave.Modules

/-- The root value: the greeting of `hello`. -/
structure Root where
  greeting : String

instance : HostType Root where
  typeName := "root.Root"
  toValue r := .record "root.Root" [("Greeting", .str r.greeting)]
  ofValue?
    | .record "root.Root" [("Greeting", .str g)] => some ⟨g⟩
    | _ => none

namespace Root

/-- The name of the query root type. -/
def queryType : String := "Query"

/-- The name of the mutation root type. -/
def mutationType : String := "Mutation"

/-- The root value of a request. -/
def value : Root := ⟨"Hello"⟩

/-- `hello(name)`: the greeting and the name, `world` when none is given. -/
def hello (rc : ResolverContext) : Except Failure FieldValue := do
  let root ← rc.parentAs Root
  let name ← rc.argOr "name" "world"
  pure (FieldValue.ofValue (.str (root.greeting ++ ", " ++ name ++ "!")))

/-- Registers `Query` with `hello` and an empty `Mutation`. -/
def module {σ : Type} : Module σ where
  name := "root"
  register := do
    Registry.registerObject
      { name := queryType
        fields := [(FieldDef.ofResolver "hello" (.nonNull (.named "String")) (Resolver.ofExcept hello)).argument
          { name := "name", type := .named "String", default := some (.str "world") }] }
    Registry.registerObject { name := mutationType }

end Root

end GraphWeave.Modules
