import GraphWeave.Resolver.Output
import GraphWeave.Schema.Basic

/-!
Definitions: the types a schema is built from, with the resolvers of object fields.
-/

namespace GraphWeave

/-- What a leaf serializer is given: a host value, or the items of a list met where a leaf was
expected. -/
inductive Leaf where
  | host (v : Value)
  | list (items : List Resolved)
deriving Repr, Inhabited

namespace Leaf

/-- The display text of a leaf input. -/
def display : Leaf → String
  | .host v => v.display
  | .list items => (Resolved.list items).display

/-- The host type name of a leaf input. -/
def typeName : Leaf → String
  | .host v => v.typeName
  | .list _ => "[]interface \x7b\x7d"

end Leaf

/-- An output field: name, type, description, arguments, resolver, whether it is resolved in its
depth's batch, and its deprecation. -/
structure FieldDef (σ : Type) where
  name : String
  type : TypeRef
  resolver : Option (Resolver σ) := none
  description : String := ""
  arguments : List Schema.InputValue := []
  async : Bool := false
  deprecation : Option String := none

namespace FieldDef

variable {σ : Type}

/-- A field with a resolver. -/
def ofResolver (name : String) (type : TypeRef) (r : Resolver σ) : FieldDef σ :=
  { name, type, resolver := some r }

/-- Adds an argument. -/
def argument (f : FieldDef σ) (iv : Schema.InputValue) : FieldDef σ :=
  { f with arguments := f.arguments ++ [iv] }

/-- Marks the field as resolved in its depth's batch. -/
def batched (f : FieldDef σ) : FieldDef σ := { f with async := true }

/-- The schema's view of the field. -/
def toSchema (f : FieldDef σ) : Schema.Field :=
  { name := f.name, type := f.type, description := f.description, arguments := f.arguments
    async := f.async, deprecation := f.deprecation }

end FieldDef

/-- An object type definition. -/
structure ObjectDef (σ : Type) where
  name : String
  description : String := ""
  fields : List (FieldDef σ) := []
  interfaces : List String := []

namespace ObjectDef

variable {σ : Type}

/-- Appends a field; repeated names are reported when the schema is built. -/
def field (o : ObjectDef σ) (f : FieldDef σ) : ObjectDef σ := { o with fields := o.fields ++ [f] }

/-- Declares an implemented interface, once. -/
def implement (o : ObjectDef σ) (iface : String) : ObjectDef σ :=
  if o.interfaces.contains iface then o else { o with interfaces := o.interfaces ++ [iface] }

/-- Field names in declaration order. -/
def fieldNames (o : ObjectDef σ) : List String := o.fields.map (·.name)

/-- Whether a field of the name is declared. -/
def hasField (o : ObjectDef σ) (name : String) : Bool := o.fields.any (·.name == name)

/-- Sorts the fields from one index on and the interfaces from another by name, keeping the
leading entries in place; equal field names keep their order. -/
def sortFrom (o : ObjectDef σ) (fieldStart interfaceStart : Nat) : ObjectDef σ :=
  { o with
    fields := o.fields.take fieldStart ++
      (o.fields.drop fieldStart).mergeSort fun a b => decide (a.name ≤ b.name)
    interfaces := o.interfaces.take interfaceStart ++
      (o.interfaces.drop interfaceStart).mergeSort fun a b => decide (a ≤ b) }

end ObjectDef

/-- An interface type definition; its fields have no resolvers. -/
structure InterfaceDef (σ : Type) where
  name : String
  description : String := ""
  fields : List (FieldDef σ) := []
  interfaces : List String := []

/-- A union type definition. -/
structure UnionDef where
  name : String
  description : String := ""
  members : List String := []

/-- An enum type definition. -/
structure EnumDef where
  name : String
  description : String := ""
  values : List Schema.EnumValue := []

/-- An input object type definition. -/
structure InputObjectDef where
  name : String
  description : String := ""
  fields : List Schema.InputValue := []
  oneOf : Bool := false

/-- A custom scalar definition. -/
structure ScalarDef where
  name : String
  description : String := ""
  /-- The specification URL; empty for none. -/
  specifiedBy : String := ""
  serialize : Option (Leaf → Except FieldError Json) := none

/-- A definition of any kind. -/
inductive Definition (σ : Type) where
  | object (d : ObjectDef σ)
  | interface (d : InterfaceDef σ)
  | union (d : UnionDef)
  | enum (d : EnumDef)
  | inputObject (d : InputObjectDef)
  | scalar (d : ScalarDef)

/-- The name a definition defines. -/
def Definition.name {σ : Type} : Definition σ → String
  | .object d => d.name
  | .interface d => d.name
  | .union d => d.name
  | .enum d => d.name
  | .inputObject d => d.name
  | .scalar d => d.name

end GraphWeave
