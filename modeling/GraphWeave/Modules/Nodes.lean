import GraphWeave.Modules.Root

/-!
The nodes module: the `Node` interface with `FooNode` and `BarNode`, over three fixed nodes.
`Query.node(id)` looks a node up by exact id; `Query.nodes` lends every node out, and
`Query.newNodes` hands over copies.
-/

namespace GraphWeave.Modules

/-- A node: a `FooNode` with a text or a `BarNode` with a number. -/
inductive Node where
  | foo (id : String) (foo : String)
  | bar (id : String) (bar : Int)

namespace Node

/-- The node's id. -/
def id : Node → String
  | .foo i _ | .bar i _ => i

/-- The object type of a node. -/
def typeName : Node → String
  | .foo .. => "FooNode"
  | .bar .. => "BarNode"

/-- The node as a host record. -/
def toValue : Node → Value
  | .foo i f => .record "nodes.FooNode" [("ID", .id i), ("Foo", .str f)]
  | .bar i b => .record "nodes.BarNode" [("ID", .id i), ("Bar", .int .word b)]

/-- The fixed nodes: the foo nodes, then the bar nodes. -/
def fixtures : List Node := [.foo "foo-1" "first", .foo "foo-2" "second", .bar "bar-1" 1]

/-- An identifier argument: an id as it is, or a string through its text. -/
structure Ident where
  text : String

instance : FromArgument Ident where
  direct?
    | .id s => some ⟨s⟩
    | _ => none
  decode?
    | .str s => some ⟨s⟩
    | .null => some ⟨""⟩
    | _ => none

/-- A field of the parent node record: the value stored under a key, identifiers as strings. -/
def member (hostType key : String) (rc : ResolverContext) : Except Failure FieldValue :=
  let found := match rc.parent.host? with
    | some (.record n fs) => if n == hostType then Value.lookup fs key else none
    | some (.ref (.record n fs)) => if n == hostType then Value.lookup fs key else none
    | _ => none
  match found with
  | some (.id s) => pure (FieldValue.ofValue (.str s))
  | some v => pure (FieldValue.ofValue v)
  | none => .error (.fail (DowncastError.message ⟨hostType, rc.parentTypeName, rc.path⟩))

/-- `node(id)`: a copy of the node with that id, or null. -/
def lookup (rc : ResolverContext) : Except Failure FieldValue := do
  let wanted ← rc.arg (α := Ident) "id"
  pure (match fixtures.find? (·.id == wanted.text) with
    | some n => FieldValue.ofOwned n.toValue n.typeName
    | none => FieldValue.none)

/-- `nodes`: every node, by reference. -/
def lent (_ : ResolverContext) : Except Failure FieldValue :=
  pure (FieldValue.ofList (fixtures.map fun n => FieldValue.ofBorrowed (.ref n.toValue) n.typeName))

/-- `newNodes`: a copy of every node. -/
def copies (_ : ResolverContext) : Except Failure FieldValue :=
  pure (FieldValue.ofList (fixtures.map fun n => FieldValue.ofOwned n.toValue n.typeName))

/-- A field resolved from the parent record. -/
def field {σ : Type} (hostType name key : String) (type : TypeRef) : FieldDef σ :=
  FieldDef.ofResolver name type (Resolver.ofExcept (member hostType key))

/-- Registers `Node`, `FooNode` and `BarNode`, and adds `Query.node`, `Query.nodes` and
`Query.newNodes`. -/
def module {σ : Type} : Module σ where
  name := "nodes"
  register := do
    Registry.registerInterface
      { name := "Node", fields := [{ name := "id", type := .nonNull (.named "ID") }] }
    Registry.registerObject
      { name := "FooNode", interfaces := ["Node"]
        fields := [field "nodes.FooNode" "id" "ID" (.nonNull (.named "ID")),
          field "nodes.FooNode" "foo" "Foo" (.nonNull (.named "String"))] }
    Registry.registerObject
      { name := "BarNode", interfaces := ["Node"]
        fields := [field "nodes.BarNode" "id" "ID" (.nonNull (.named "ID")),
          field "nodes.BarNode" "bar" "Bar" (.nonNull (.named "Int"))] }
    let list : TypeRef := .nonNull (.list (.nonNull (.named "Node")))
    Registry.injectFields "Query" "nodes"
      [some ((FieldDef.ofResolver "node" (.named "Node") (Resolver.ofExcept lookup)).argument
          { name := "id", type := .nonNull (.named "ID") }),
       some (FieldDef.ofResolver "nodes" list (Resolver.ofExcept lent)),
       some (FieldDef.ofResolver "newNodes" list (Resolver.ofExcept copies))]

end Node

end GraphWeave.Modules
