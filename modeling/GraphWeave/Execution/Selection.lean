import GraphWeave.Execution.Arguments

/-!
Which fields a selection set asks of an object.
-/

namespace GraphWeave

/-- The fields selected under one response key, in document order. -/
structure FieldGroup where
  key : String
  fields : List Field
deriving Inhabited

namespace FieldGroup

/-- Adds a field to the group of its key, opening a group for a new key. -/
def add (groups : List FieldGroup) (key : String) (f : Field) : List FieldGroup :=
  if groups.any (·.key == key) then
    groups.map fun g => if g.key == key then { g with fields := g.fields ++ [f] } else g
  else groups ++ [⟨key, [f]⟩]

end FieldGroup

/-- The selections under all the fields of a group, one after the other. -/
def mergeSelections (fields : List Field) : List Selection :=
  fields.foldr (fun f acc => f.selections ++ acc) []

/-- What the executor knows while it collects fields: the schema, the document and the
coerced variables. -/
structure CollectContext where
  schema : Schema
  document : Document
  variableValues : List (String × Value)

namespace CollectContext

/-- The `if` argument of the first directive of a name, read with the variables. -/
def condition (c : CollectContext) (directives : List Directive) (name : String) : Option Value :=
  match directives.find? (·.name == name) with
  | some d => (d.arguments.find? (·.1 == "if")).map fun (_, lit) => lit.toValue c.variableValues
  | none => none

/-- Whether a selection with these directives is kept. -/
def includes (c : CollectContext) (directives : List Directive) : Bool :=
  let skipped := match c.condition directives "skip" with
    | some (.bool true) => true
    | _ => false
  let excluded := match c.condition directives "include" with
    | some (.bool false) => true
    | _ => false
  !skipped && !excluded

/-- Whether a type condition applies to an object type; no condition always applies. -/
def applies (c : CollectContext) (object condition : String) : Bool :=
  condition.isEmpty || c.schema.isPossibleType condition object

/-- Collects the fields of a selection list into groups; `visited` holds the fragment names
already entered, and `fuel` the fragments that may still be entered. -/
def collectInto (c : CollectContext) (object : String) (fuel : Nat)
    (acc : List FieldGroup × List String) (selections : List Selection) :
    List FieldGroup × List String :=
  match selections with
  | [] => acc
  | .field f :: rest =>
    let acc := if c.includes f.directives then (FieldGroup.add acc.1 f.responseKey f, acc.2) else acc
    c.collectInto object fuel acc rest
  | .inline condition directives inner :: rest =>
    let acc :=
      if c.includes directives && c.applies object condition then
        c.collectInto object fuel acc inner
      else acc
    c.collectInto object fuel acc rest
  | .spread name directives :: rest =>
    let acc :=
      if !c.includes directives || acc.2.contains name then acc
      else
        let acc := (acc.1, acc.2 ++ [name])
        match c.document.fragment? name, fuel with
        | some frag, fuel' + 1 =>
          if c.applies object frag.typeCondition && c.includes frag.directives then
            c.collectInto object fuel' acc frag.selections
          else acc
        | _, _ => acc
    c.collectInto object fuel acc rest
termination_by (fuel, sizeOf selections)

/-- The field groups that a selection list asks of an object type. -/
def collect (c : CollectContext) (object : String) (selections : List Selection) :
    List FieldGroup :=
  (c.collectInto object (c.document.fragments.length + 1) ([], []) selections).1

end CollectContext

/-- Adds a name unless present. -/
def insertNew (names : List String) (name : String) : List String :=
  if names.contains name then names else names ++ [name]

/-- Entering a fragment that is defined and not yet being walked leaves fewer defined fragments
outside the walk. -/
theorem Document.unentered_lt {doc : Document} {entered : List String} {name : String}
    {frag : Fragment} (found : doc.fragment? name = some frag) (fresh : ¬entered.contains name) :
    (doc.fragments.filter fun g => !(entered ++ [name]).contains g.name).length <
      (doc.fragments.filter fun g => !entered.contains g.name).length := by
  have member : frag ∈ doc.fragments := List.mem_of_find?_eq_some found
  have named : frag.name = name := by simpa using List.find?_some found
  have narrower : (doc.fragments.filter fun g => !(entered ++ [name]).contains g.name) =
      (doc.fragments.filter fun g => !entered.contains g.name).filter
        fun g => !(entered ++ [name]).contains g.name := by
    rw [List.filter_filter]
    refine List.filter_congr fun g _ => ?_
    cases h : entered.contains g.name <;> simp_all
  rw [narrower]
  refine Nat.lt_of_le_of_ne (List.length_filter_le _ _) fun same => ?_
  have kept := List.length_filter_eq_length_iff.mp same frag (by simp_all)
  simp [named] at kept

/-- Walks selections for the look-ahead: `found` holds the paths in order of appearance,
`visited` the fragments entered under each prefix, as `prefix/name`, and `entered` the
fragments being walked. A fragment reached again beneath itself, under a longer prefix, starts
a walk that never ends; the result is then `none`. -/
def lookAhead (doc : Document) (entered : List String) (pre : String)
    (acc : List String × List String) : List Selection → Option (List String × List String)
  | [] => some acc
  | .field f :: rest =>
    if f.name.startsWith "__" then lookAhead doc entered pre acc rest
    else
      let path := if pre.isEmpty then f.name else pre ++ "." ++ f.name
      have := Field.sizeOf_selections_lt f
      (lookAhead doc entered path (insertNew acc.1 path, acc.2) f.selections).bind fun acc =>
        lookAhead doc entered pre acc rest
  | .inline _ _ inner :: rest =>
    (lookAhead doc entered pre acc inner).bind fun acc => lookAhead doc entered pre acc rest
  | .spread name _ :: rest =>
    let key := pre ++ "/" ++ name
    if acc.2.contains key then lookAhead doc entered pre acc rest
    else
      let acc := (acc.1, acc.2 ++ [key])
      match found : doc.fragment? name with
      | none => lookAhead doc entered pre acc rest
      | some frag =>
        if fresh : entered.contains name then none
        else
          have := Document.unentered_lt found fresh
          (lookAhead doc (entered ++ [name]) pre acc frag.selections).bind fun acc =>
            lookAhead doc entered pre acc rest
termination_by selections =>
  ((doc.fragments.filter fun g => !entered.contains g.name).length, sizeOf selections)
decreasing_by
  all_goals first
    | exact Prod.Lex.left _ _ this
    | (apply Prod.Lex.right; simp <;> omega)

/-- The dotted paths of every field selected below the given fields, or `none` when the walk
never ends. -/
def selectedFieldNames (doc : Document) (fields : List Field) : Option (List String) :=
  (lookAhead doc [] "" ([], []) (mergeSelections fields)).map (·.1)

end GraphWeave
