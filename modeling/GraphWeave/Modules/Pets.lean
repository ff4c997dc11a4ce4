import GraphWeave.Modules.Root

/-!
The pets module: the `Named` interface and the union `Animal` of `Dog`, `Cat` and `Snake`;
dogs and cats are named, snakes are not. `Query.animals` lists a fixed zoo.
-/

namespace GraphWeave.Modules

/-- An animal of the zoo. -/
inductive Animal where
  | dog (name : String) (barks : Bool)
  | cat (name : String) (lives : Int)
  | snake (length : Binary64)

namespace Animal

/-- The object type of an animal. -/
def typeName : Animal → String
  | .dog .. => "Dog"
  | .cat .. => "Cat"
  | .snake .. => "Snake"

/-- The animal as a host record. -/
def toValue : Animal → Value
  | .dog name barks => .record "pets.Dog" [("Name", .str name), ("Barks", .bool barks)]
  | .cat name lives => .record "pets.Cat" [("Name", .str name), ("Lives", .int .word lives)]
  | .snake length => .record "pets.Snake" [("Length", .double length)]

/-- The zoo. -/
def zoo : List Animal :=
  [.dog "Rex" true, .cat "Tom" 9, .snake (BinaryFloat.ofDecimal false 25 (-1))]

/-- A field of the parent record of a host type: the value stored under a key. -/
def member (hostType key : String) (rc : ResolverContext) : Except Failure FieldValue :=
  let found := match rc.parent.host? with
    | some (.record n fs) => if n == hostType then Value.lookup fs key else none
    | some (.ref (.record n fs)) => if n == hostType then Value.lookup fs key else none
    | _ => none
  match found with
  | some v => pure (FieldValue.ofValue v)
  | none => .error (.fail (DowncastError.message ⟨hostType, rc.parentTypeName, rc.path⟩))

/-- `animals`: every animal of the zoo, owned. -/
def animals (_ : ResolverContext) : Except Failure FieldValue :=
  pure (FieldValue.ofList (zoo.map fun a => FieldValue.ofOwned a.toValue a.typeName))

/-- A field resolved from the parent record. -/
def field {σ : Type} (hostType name key : String) (type : TypeRef) : FieldDef σ :=
  FieldDef.ofResolver name type (Resolver.ofExcept (member hostType key))

/-- Registers `Named`, `Dog`, `Cat`, `Snake` and `Animal`, and adds `Query.animals`. -/
def module {σ : Type} : Module σ where
  name := "pets"
  register := do
    Registry.registerInterface
      { name := "Named", fields := [{ name := "name", type := .nonNull (.named "String") }] }
    Registry.registerObject
      { name := "Dog", interfaces := ["Named"]
        fields := [field "pets.Dog" "name" "Name" (.nonNull (.named "String")),
          field "pets.Dog" "barks" "Barks" (.nonNull (.named "Boolean"))] }
    Registry.registerObject
      { name := "Cat", interfaces := ["Named"]
        fields := [field "pets.Cat" "name" "Name" (.nonNull (.named "String")),
          field "pets.Cat" "lives" "Lives" (.nonNull (.named "Int"))] }
    Registry.registerObject
      { name := "Snake", fields := [field "pets.Snake" "length" "Length" (.nonNull (.named "Float"))] }
    Registry.registerUnion { name := "Animal", members := ["Dog", "Cat", "Snake"] }
    Registry.expandObject "Query"
      (some fun q => some (q.field (FieldDef.ofResolver "animals"
        (.nonNull (.list (.nonNull (.named "Animal")))) (Resolver.ofExcept animals))))
      ⟨"pets", "animals"⟩

end Animal

end GraphWeave.Modules
