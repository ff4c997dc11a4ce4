import GraphWeave.Modules.Root

/-!
The foobar module: the union `FooBar` of `Foo` and `Bar`. `Query.foobar` lends out a `Bar` the
module keeps; `Query.newFoobar` hands over a fresh `Foo`.
-/

namespace GraphWeave.Modules

/-- A `Foo`: one text. -/
structure Foo where
  a : String

/-- A `Bar`: one text. -/
structure Bar where
  b : String

instance : HostType Foo where
  typeName := "foobar.Foo"
  toValue f := .record "foobar.Foo" [("A", .str f.a)]
  ofValue?
    | .record "foobar.Foo" [("A", .str a)] => some ⟨a⟩
    | _ => none

instance : HostType Bar where
  typeName := "foobar.Bar"
  toValue b := .record "foobar.Bar" [("B", .str b.b)]
  ofValue?
    | .record "foobar.Bar" [("B", .str b)] => some ⟨b⟩
    | _ => none

namespace FooBar

/-- The `Bar` that `foobar` lends out. -/
def current : Bar := ⟨"x"⟩

/-- `a` of the parent `Foo`. -/
def a (rc : ResolverContext) : Except Failure FieldValue := do
  let f ← rc.parentAs Foo
  pure (FieldValue.ofValue (.str f.a))

/-- `b` of the parent `Bar`. -/
def b (rc : ResolverContext) : Except Failure FieldValue := do
  let x ← rc.parentAs Bar
  pure (FieldValue.ofValue (.str x.b))

/-- `foobar`: the kept `Bar`, by reference. -/
def lent (_ : ResolverContext) : Except Failure FieldValue :=
  pure (FieldValue.ofBorrowed (.ref (HostType.toValue current)) "Bar")

/-- `newFoobar`: a fresh `Foo`. -/
def fresh (_ : ResolverContext) : Except Failure FieldValue :=
  pure (FieldValue.ofOwned (HostType.toValue (Foo.mk "fresh")) "Foo")

/-- Registers `Foo`, `Bar` and `FooBar`, and adds `Query.foobar` and `Query.newFoobar`. -/
def module {σ : Type} : Module σ where
  name := "foobar"
  register := do
    Registry.registerObject
      { name := "Foo", fields := [FieldDef.ofResolver "a" (.nonNull (.named "String")) (Resolver.ofExcept a)] }
    Registry.registerObject
      { name := "Bar", fields := [FieldDef.ofResolver "b" (.nonNull (.named "String")) (Resolver.ofExcept b)] }
    Registry.registerUnion { name := "FooBar", members := ["Foo", "Bar"] }
    Registry.injectFields "Query" "foobar"
      [some (FieldDef.ofResolver "foobar" (.nonNull (.named "FooBar")) (Resolver.ofExcept lent)),
       some (FieldDef.ofResolver "newFoobar" (.nonNull (.named "FooBar")) (Resolver.ofExcept fresh))]

end FooBar

end GraphWeave.Modules
