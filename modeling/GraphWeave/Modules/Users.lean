import GraphWeave.Modules.Root
import GraphWeave.Text.Case

/-!
The users module: the `User` type and `Query.me`, the caller named by the `x-user-name` request
header. The user's id is derived from the name; the name itself is filled in only when the
request selects it.
-/

namespace GraphWeave.Modules

/-- A user: an id and a name. -/
structure User where
  id : String
  name : String

instance : HostType User where
  typeName := "users.User"
  toValue u := .record "users.User" [("ID", .str u.id), ("Name", .str u.name)]
  ofValue?
    | .record "users.User" [("ID", .str i), ("Name", .str n)] => some ⟨i, n⟩
    | _ => none

namespace User

/-- The header naming the caller. -/
def nameHeader : String := "x-user-name"

/-- The id of a user name: `user-` and the name in lower case, blanks made dashes. -/
def idOf (name : String) : String := "user-" ++ lowerCase (name.replace " " "-")

/-- `me`: the caller, `guest` when the header is absent or empty. -/
def me (rc : ResolverContext) : Except Failure FieldValue := do
  let name := match rc.metadata.get nameHeader with
    | first :: _ => if first.isEmpty then "guest" else first
    | [] => "guest"
  let named ← rc.hasSelectedField "name"
  let u : User := ⟨idOf name, if named then name else ""⟩
  pure (FieldValue.ofOwned (HostType.toValue u) "User")

/-- A field of the parent user. -/
def property (get : User → String) (rc : ResolverContext) : Except Failure FieldValue := do
  let u ← rc.parentAs User
  pure (FieldValue.ofValue (.str (get u)))

/-- Registers `User` and adds `Query.me`. -/
def module {σ : Type} : Module σ where
  name := "users"
  register := do
    Registry.registerObject
      { name := "User"
        fields := [FieldDef.ofResolver "id" (.nonNull (.named "String")) (Resolver.ofExcept (property (·.id))),
          FieldDef.ofResolver "name" (.nonNull (.named "String")) (Resolver.ofExcept (property (·.name)))] }
    Registry.expandObject "Query"
      (some fun q => some (q.field (FieldDef.ofResolver "me" (.nonNull (.named "User")) (Resolver.ofExcept me))))
      ⟨"users", "me"⟩

end User

end GraphWeave.Modules
