import GraphWeave.Modules.Users

/-!
The avatars module: the `Image` type and `User.avatar`, resolved in its depth's batch. Every
user's avatar is a square of 128 pixels at a URL made from the user's id.
-/

namespace GraphWeave.Modules

/-- An image: its URL and optional dimensions. -/
structure Image where
  url : String
  width : Option Int
  height : Option Int

/-- An optional integer as held in a record. -/
def optionalInt : Option Int → Value
  | some n => .int .word n
  | none => .null

instance : HostType Image where
  typeName := "avatars.Image"
  toValue i := .record "avatars.Image"
    [("URL", .str i.url), ("Width", optionalInt i.width), ("Height", optionalInt i.height)]
  ofValue?
    | .record "avatars.Image" [("URL", .str u), ("Width", w), ("Height", h)] =>
      let opt : Value → Option (Option Int)
        | .int .word n => some (some n)
        | .null => some none
        | _ => none
      match opt w, opt h with
      | some w, some h => some ⟨u, w, h⟩
      | _, _ => none
    | _ => none

namespace Image

/-- Where avatars are served from. -/
def baseUrl : String := "https://avatars.example.com/"

/-- An optional dimension of the parent image. -/
def dimension (get : Image → Option Int) (rc : ResolverContext) : Except Failure FieldValue := do
  let img ← rc.parentAs Image
  pure (match get img with
    | some n => FieldValue.ofValue (.int .word n)
    | none => FieldValue.none)

/-- The URL of the parent image. -/
def location (rc : ResolverContext) : Except Failure FieldValue := do
  let img ← rc.parentAs Image
  pure (FieldValue.ofValue (.str img.url))

/-- `avatar`: the parent user's avatar. -/
def avatar (rc : ResolverContext) : Except Failure FieldValue := do
  let u ← rc.parentAs User
  let img : Image := ⟨baseUrl ++ u.id ++ ".png", some 128, some 128⟩
  pure (FieldValue.ofOwned (HostType.toValue img) "Image")

/-- Registers `Image` and adds `User.avatar`. -/
def module {σ : Type} : Module σ where
  name := "avatars"
  register := do
    Registry.registerObject
      { name := "Image"
        fields := [FieldDef.ofResolver "url" (.nonNull (.named "String")) (Resolver.ofExcept location),
          FieldDef.ofResolver "width" (.named "Int") (Resolver.ofExcept (dimension (·.width))),
          FieldDef.ofResolver "height" (.named "Int") (Resolver.ofExcept (dimension (·.height)))] }
    Registry.expandObject "User"
      (some fun u => some (u.field
        (FieldDef.ofResolver "avatar" (.named "Image") (Resolver.ofExcept avatar)).batched))
      ⟨"avatars", "avatar"⟩

end Image

end GraphWeave.Modules
