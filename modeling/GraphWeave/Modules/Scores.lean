import GraphWeave.Modules.Root

/-!
The scores module: a list of raw score entries parsed one by one. `Query.scores` reports an
error for each entry that does not parse, in its place; `Query.maybeScore(index)` is null for
such an entry or an index out of range.
-/

namespace GraphWeave.Modules

namespace Scores

/-- The raw entries. -/
def raw : List String := ["10", "x", "30"]

/-- A decimal integer of 64 bits, or the error of reading it. -/
def parseEntry (s : String) : Except String Int :=
  match parseInteger? s with
  | some n =>
    if -Int.pow 2 63 ≤ n ∧ n < Int.pow 2 63 then .ok n
    else .error ("strconv.Atoi: parsing " ++ Quoted.encode s ++ ": value out of range")
  | none => .error ("strconv.Atoi: parsing " ++ Quoted.encode s ++ ": invalid syntax")

/-- `scores`: every entry, an error item where it does not parse. -/
def scores (_ : ResolverContext) : Except Failure FieldValue :=
  pure (FieldValue.ofList (raw.map fun s =>
    match parseEntry s with
    | .ok n => FieldValue.ofValue (.int .word n)
    | .error message => FieldValue.ofError { message }))

/-- `maybeScore(index)`: the entry at an index, when it parses. -/
def maybeScore (rc : ResolverContext) : Except Failure FieldValue := do
  let index ← rc.arg (α := Int) "index"
  let entry := if index < 0 then none else raw[index.toNat]?
  pure (match entry.bind fun s => (parseEntry s).toOption with
    | some n => FieldValue.ofValue (.int .word n)
    | none => FieldValue.none)

/-- Adds `Query.scores` and `Query.maybeScore`. -/
def module {σ : Type} : Module σ where
  name := "scores"
  register :=
    Registry.injectFields "Query" "scores"
      [some (FieldDef.ofResolver "scores" (.nonNull (.list (.named "Int"))) (Resolver.ofExcept scores)),
       some ((FieldDef.ofResolver "maybeScore" (.named "Int") (Resolver.ofExcept maybeScore)).argument
          { name := "index", type := .nonNull (.named "Int") })]

end Scores

end GraphWeave.Modules
