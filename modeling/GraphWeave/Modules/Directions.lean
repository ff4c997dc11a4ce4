import GraphWeave.Modules.Root

/-!
The directions module: the enum `Direction` of the four compass points in clockwise order, and
fields that turn a direction a quarter (`next`) or half (`opposite`) turn clockwise.
-/

namespace GraphWeave.Modules

namespace Direction

/-- The compass points, clockwise. -/
def clockwise : List String := ["NORTH", "EAST", "SOUTH", "WEST"]

/-- The point `steps` quarter turns clockwise from a point. -/
def turnBy (steps : Nat) (d : String) : Except String String :=
  match clockwise.idxOf? d with
  | some i => .ok (clockwise.getD ((i + steps) % clockwise.length) d)
  | none => .error ("unknown direction " ++ Quoted.encode d)

/-- A field turning its `direction` argument, north when none is given. -/
def turn (steps : Nat) (rc : ResolverContext) : Except Failure FieldValue := do
  let d ← rc.argOr "direction" "NORTH"
  match turnBy steps d with
  | .ok out => pure (FieldValue.ofValue (.str out))
  | .error message => .error (.fail message)

/-- Registers `Direction` and adds `Query.next` and `Query.opposite`. -/
def module {σ : Type} : Module σ where
  name := "directions"
  register := do
    Registry.registerEnum { name := "Direction", values := clockwise.map fun d => { name := d } }
    Registry.injectFields "Query" "directions"
      [some ((FieldDef.ofResolver "next" (.nonNull (.named "Direction")) (Resolver.ofExcept (turn 1))).argument
          { name := "direction", type := .nonNull (.named "Direction") }),
       some ((FieldDef.ofResolver "opposite" (.nonNull (.named "Direction"))
          (Resolver.ofExcept (turn 2))).argument
          { name := "direction", type := .named "Direction", default := some (.enumLiteral "NORTH") })]

end Direction

end GraphWeave.Modules
