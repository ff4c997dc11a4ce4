import GraphWeave.Modules.Root

/-!
The counter module: a counter kept in the host state, read by `Query.count` and changed by the
`increment` and `decrement` mutations, which return the new value.
-/

namespace GraphWeave.Modules

namespace Counter

/-- Where the counter lives in the host state. -/
structure Slot (σ : Type) where
  get : σ → Int
  set : σ → Int → σ

variable {σ : Type}

/-- The counter is a 64-bit machine integer: a sum past its range wraps around. -/
def wrap (n : Int) : Int := n.bmod (Nat.pow 2 64)

/-- `count`: the counter. -/
def count (slot : Slot σ) : Resolver σ := fun _ => do
  pure (.ok (FieldValue.ofValue (.int .word (slot.get (← get)))))

/-- Adds `sign · by` to the counter, wrapping around, and returns the new value. -/
def change (slot : Slot σ) (sign : Int) : Resolver σ := fun rc => do
  match rc.arg (α := Int) "by" with
  | .error e => pure (.error (.fail e.message))
  | .ok amount =>
    let value := wrap (slot.get (← get) + sign * amount)
    modify fun st => slot.set st value
    pure (.ok (FieldValue.ofValue (.int .word value)))

/-- A mutation field changing the counter, with its `by` argument. -/
def mutationField (slot : Slot σ) (name : String) (sign : Int) : FieldDef σ :=
  (FieldDef.ofResolver name (.nonNull (.named "Int")) (change slot sign)).argument
    { name := "by", type := .named "Int", default := some (.int .word 1) }

/-- Adds `Query.count`, `Mutation.increment` and `Mutation.decrement`. -/
def module (slot : Slot σ) : Module σ where
  name := "counter"
  register := do
    Registry.expandObject "Query"
      (some fun q => some (q.field (FieldDef.ofResolver "count" (.nonNull (.named "Int")) (count slot))))
      ⟨"counter", "count"⟩
    for (name, sign) in [("increment", (1 : Int)), ("decrement", -1)] do
      Registry.expandObject "Mutation"
        (some fun m => some (m.field (mutationField slot name sign))) ⟨"counter", name⟩

end Counter

end GraphWeave.Modules
