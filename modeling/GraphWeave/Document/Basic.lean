import GraphWeave.TypeRef

/-!
Request documents: operations and fragments, their selections, and the literal values written
in arguments and variable defaults. Fields remember where they start in the text, since
errors about them point there.
-/

namespace GraphWeave

/-- The kind of an operation. -/
inductive OperationKind where
  | query
  | mutation
  | subscription
deriving DecidableEq, Repr, Inhabited

/-- The keyword of an operation kind. -/
def OperationKind.keyword : OperationKind → String
  | .query => "query"
  | .mutation => "mutation"
  | .subscription => "subscription"

/-- A value written in a document. Numbers keep their text. -/
inductive Literal where
  | variable (name : String)
  | int (raw : String)
  | float (raw : String)
  | string (value : String)
  | boolean (value : Bool)
  | null
  | enum (name : String)
  | list (items : List Literal)
  | object (fields : List (String × Literal))
deriving Repr, Inhabited

/-- A place in a text: 1-based line and column, counting characters. -/
structure Location where
  line : Int
  column : Int
deriving DecidableEq, Repr, Inhabited

/-- A directive applied to a selection or definition. -/
structure Directive where
  name : String
  arguments : List (String × Literal)
deriving Repr, Inhabited

mutual

/-- A field selection: its response key is the alias, which defaults to the name. -/
structure Field where
  responseKey : String
  name : String
  arguments : List (String × Literal)
  directives : List Directive
  selections : List Selection
  location : Location

/-- One entry of a selection set. -/
inductive Selection where
  | field (f : Field)
  | spread (name : String) (directives : List Directive)
  | inline (typeCondition : String) (directives : List Directive) (selections : List Selection)

end

instance : Inhabited Field := ⟨⟨"", "", [], [], [], default⟩⟩

theorem Field.sizeOf_selections_lt (f : Field) : sizeOf f.selections < sizeOf f := by
  cases f
  simp
  omega

/-- A variable declared by an operation. -/
structure VariableDefinition where
  name : String
  type : TypeRef
  default : Option Literal
  directives : List Directive
deriving Inhabited

/-- An operation of a document. -/
structure Operation where
  kind : OperationKind
  name : String
  variableDefinitions : List VariableDefinition
  directives : List Directive
  selections : List Selection
deriving Inhabited

/-- A named fragment. -/
structure Fragment where
  name : String
  typeCondition : String
  variableDefinitions : List VariableDefinition
  directives : List Directive
  selections : List Selection
deriving Inhabited

/-- A request document: operations and fragments in the order written. -/
structure Document where
  operations : List Operation
  fragments : List Fragment
deriving Inhabited

namespace Document

/-- The fragment of a name: the first one written. -/
def fragment? (doc : Document) (name : String) : Option Fragment :=
  doc.fragments.find? (·.name == name)

/-- The operation to run: the only one when no name is given, else the first of that name. -/
def operation? (doc : Document) (name : String) : Option Operation :=
  match name, doc.operations with
  | "", [op] => some op
  | _, ops => ops.find? (·.name == name)

end Document

/-- A syntax error: its message and where it points. -/
structure SyntaxError where
  message : String
  location : Location
deriving Repr, Inhabited

/-- How the text of a request is read into a document: the parser gives the document, or the
first syntax error. -/
abbrev DocumentParser := String → Except SyntaxError Document

/-- How a parsed document's list of operations finds an operation by name; the parser
provides it. -/
abbrev OperationLookup := List Operation → String → Option Operation

/-- The parser's lookup: the only operation when no name is given, else the first of that name. -/
def OperationLookup.standard : OperationLookup := fun ops name =>
  match name, ops with
  | "", [op] => some op
  | _, ops => ops.find? (·.name == name)

end GraphWeave
