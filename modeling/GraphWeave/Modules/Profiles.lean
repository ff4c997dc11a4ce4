import GraphWeave.Modules.Users

/-!
The profiles module: the `Aged` interface, which `User` comes to implement with an age derived
from the user's id by the 32-bit FNV-1a hash, between 18 and 67.
-/

namespace GraphWeave.Modules

namespace Profile

/-- The 32-bit FNV-1a hash of the UTF-8 bytes of a string. -/
def fnv1a32 (s : String) : Nat :=
  s.toUTF8.foldl (fun h b => ((h ^^^ b.toNat) * 16777619) % Nat.pow 2 32) 2166136261

/-- The age of a user id. -/
def ageOf (id : String) : Int := 18 + (fnv1a32 id % 50 : Nat)

/-- `age`: the parent user's age. -/
def age (rc : ResolverContext) : Except Failure FieldValue := do
  let u ← rc.parentAs User
  pure (FieldValue.ofValue (.int .word (ageOf u.id)))

/-- Registers `Aged` and makes `User` implement it. -/
def module {σ : Type} : Module σ where
  name := "profiles"
  register := do
    Registry.registerInterface { name := "Aged", fields := [{ name := "age", type := .nonNull (.named "Int") }] }
    Registry.expandObject "User"
      (some fun u => some ((u.implement "Aged").field
        (FieldDef.ofResolver "age" (.nonNull (.named "Int")) (Resolver.ofExcept age))))
      ⟨"profiles", "age"⟩

end Profile

end GraphWeave.Modules
