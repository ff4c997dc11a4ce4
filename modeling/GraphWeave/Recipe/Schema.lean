import GraphWeave.Recipe.Definition
import GraphWeave.Schema.Basic

/-!
Schemas read from JSON descriptions of their types and directives directly, without resolvers:
`{"types": [...], "directives": [...], "query", "mutation", "subscription", "description", "bare"}`.
-/

namespace GraphWeave.Recipe

/-- A field of an object or interface; its type may be left out. -/
def schemaField (j : Json) : Except String Schema.Field := do
  let name ← requireString j "name"
  let type ← if j.has "type" then typeOf j else pure (.named "")
  let arguments ← inputValues j "args"
  pure { name, type, description := text j "description", arguments
         deprecation := deprecationOf j }

/-- A value of an enum. -/
def schemaEnumValue (j : Json) : Except String Schema.EnumValue := do
  let name ← requireString j "name"
  pure { name, description := text j "description", deprecation := deprecationOf j }

/-- A named type. -/
def namedType (j : Json) : Except String Schema.NamedType := do
  let name ← requireString j "name"
  let kind ← match TypeKind.ofName? (text j "kind") with
    | some k => pure k
    | none => throw ("unknown type kind " ++ Quoted.encode (text j "kind"))
  let fs ← (j.items "fields").mapM schemaField
  let enumValues ← (j.items "enumValues").mapM schemaEnumValue
  let inputFields ← inputValues j "inputFields"
  pure { name, kind, description := text j "description", fields := fs
         interfaces := names j "interfaces", possibleTypes := names j "possibleTypes"
         enumValues, inputFields, specifiedBy := j.getStr? "specifiedBy"
         oneOf := j.flag "oneOf" }

/-- A directive definition. -/
def directiveDef (j : Json) : Except String Schema.Directive := do
  let name ← requireString j "name"
  let arguments ← inputValues j "args"
  pure { name, description := text j "description", locations := names j "locations", arguments
         repeatable := j.flag "repeatable" }

/-- A schema from its description. -/
def schema (j : Json) : Except String Schema := do
  let start : Schema := if j.flag "bare" then {} else Schema.withBuiltins (text j "description")
  let types ← (j.items "types").mapM namedType
  let directives ← (j.items "directives").mapM directiveDef
  let s := directives.foldl Schema.addDirective (types.foldl Schema.addType start)
  pure { s with query := text j "query", mutation := text j "mutation"
                subscription := text j "subscription" }

end GraphWeave.Recipe
