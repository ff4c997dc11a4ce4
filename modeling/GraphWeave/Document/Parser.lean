import GraphWeave.Document.Token

/-!
Reading request documents from their tokens.
-/

namespace GraphWeave

namespace Parser

/-- A step of the reader: the tokens left, and a result or the first error. -/
abbrev Step (α : Type) := List Token → Except SyntaxError (α × List Token)

/-- The next token; past the end it is the end again. -/
def peek (ts : List Token) : Token := ts.headD ⟨.eof, "", ⟨1, 1⟩⟩

/-- Consumes one token; the last token (end or invalid) stays. -/
def advance (ts : List Token) : List Token :=
  match ts with
  | [t] => [t]
  | _ :: rest => rest
  | [] => []

/-- Fails at a token. -/
def failAt {α : Type} (t : Token) (message : String) : Except SyntaxError α :=
  .error ⟨message, t.location⟩

/-- Consumes a token of a kind, or fails with `Expected <kind>, found <kind>`. -/
def expect (kind : TokenKind) : Step Token := fun ts =>
  let t := peek ts
  if t.kind == kind then .ok (t, advance ts)
  else failAt t ("Expected " ++ kind.describe ++ ", found " ++ t.kind.describe)

/-- Consumes a name with a given text, or fails with `Expected "<word>", found <token>`. -/
def expectKeyword (word : String) : Step Unit := fun ts =>
  let t := peek ts
  if t.kind == .name && t.value == word then .ok ((), advance ts)
  else failAt t ("Expected " ++ Quoted.encode word ++ ", found " ++ t.describe)

/-- Fails with `Unexpected <token>` at the next token. -/
def unexpected {α : Type} : Step α := fun ts =>
  let t := peek ts
  failAt t ("Unexpected " ++ t.describe)

/-- Consumes a token of a kind if it is next. -/
def skip (kind : TokenKind) (ts : List Token) : Bool × List Token :=
  if (peek ts).kind == kind then (true, advance ts) else (false, ts)

/-- Reads a name. -/
def name : Step String := fun ts =>
  match expect .name ts with
  | .ok (t, ts) => .ok (t.value, ts)
  | .error e => .error e

mutual

/-- A type reference: `Name`, `[T]`, each optionally followed by `!`. -/
def typeRef (fuel : Nat) : Step TypeRef := fun ts =>
  match fuel with
  | 0 => unexpected ts
  | fuel + 1 =>
    let (isList, ts) := skip .bracketL ts
    let inner : Except SyntaxError (TypeRef × List Token) :=
      if isList then
        match typeRef fuel ts with
        | .ok (t, ts) =>
          match expect .bracketR ts with
          | .ok (_, ts) => .ok (.list t, ts)
          | .error e => .error e
        | .error e => .error e
      else
        match name ts with
        | .ok (n, ts) => .ok (.named n, ts)
        | .error e => .error e
    match inner with
    | .ok (t, ts) =>
      let (bang, ts) := skip .bang ts
      .ok (if bang then .nonNull t else t, ts)
    | .error e => .error e

end

mutual

/-- A literal value; constants admit no variables. -/
def value (isConst : Bool) (fuel : Nat) : Step Literal := fun ts =>
  match fuel with
  | 0 => unexpected ts
  | fuel + 1 =>
    let t := peek ts
    match t.kind with
    | .bracketL => listItems isConst fuel [] (advance ts)
    | .braceL => objectFields isConst fuel [] (advance ts)
    | .dollar =>
      if isConst then unexpected ts
      else
        match name (advance ts) with
        | .ok (n, ts) => .ok (.variable n, ts)
        | .error e => .error e
    | .int => .ok (.int t.value, advance ts)
    | .float => .ok (.float t.value, advance ts)
    | .string => .ok (.string t.value, advance ts)
    | .blockString => .ok (.string t.value, advance ts)
    | .name =>
      let lit :=
        if t.value == "true" then Literal.boolean true
        else if t.value == "false" then .boolean false
        else if t.value == "null" then .null
        else .enum t.value
      .ok (lit, advance ts)
    | _ => unexpected ts

/-- Items of a list literal after `[`. -/
def listItems (isConst : Bool) (fuel : Nat) (acc : List Literal) : Step Literal := fun ts =>
  match fuel with
  | 0 => unexpected ts
  | fuel + 1 =>
    if (peek ts).kind == .bracketR then .ok (.list acc.reverse, advance ts)
    else
      match value isConst fuel ts with
      | .ok (v, ts) => listItems isConst fuel (v :: acc) ts
      | .error e => .error e

/-- Fields of an object literal after `{`. -/
def objectFields (isConst : Bool) (fuel : Nat) (acc : List (String × Literal)) :
    Step Literal := fun ts =>
  match fuel with
  | 0 => unexpected ts
  | fuel + 1 =>
    if (peek ts).kind == .braceR then .ok (.object acc.reverse, advance ts)
    else
      match name ts with
      | .error e => .error e
      | .ok (n, ts) =>
        match expect .colon ts with
        | .error e => .error e
        | .ok (_, ts) =>
          match value isConst fuel ts with
          | .ok (v, ts) => objectFields isConst fuel ((n, v) :: acc) ts
          | .error e => .error e

end

/-- Arguments after `(`, up to `)`. -/
def argumentList (isConst : Bool) (fuel : Nat) (acc : List (String × Literal)) :
    Step (List (String × Literal)) := fun ts =>
  match fuel with
  | 0 => unexpected ts
  | fuel + 1 =>
    if (peek ts).kind == .parenR then .ok (acc.reverse, advance ts)
    else
      match name ts with
      | .error e => .error e
      | .ok (n, ts) =>
        match expect .colon ts with
        | .error e => .error e
        | .ok (_, ts) =>
          match value isConst fuel ts with
          | .ok (v, ts) => argumentList isConst fuel ((n, v) :: acc) ts
          | .error e => .error e

/-- Optional arguments in parentheses. -/
def arguments (isConst : Bool) (fuel : Nat) : Step (List (String × Literal)) := fun ts =>
  let (opened, ts) := skip .parenL ts
  if opened then argumentList isConst fuel [] ts else .ok ([], ts)

/-- Directives `@name(args)`, as many as follow. -/
def directives (isConst : Bool) (fuel : Nat) (acc : List Directive) : Step (List Directive) :=
  fun ts =>
  match fuel with
  | 0 => unexpected ts
  | fuel + 1 =>
    if (peek ts).kind == .at then
      match name (advance ts) with
      | .error e => .error e
      | .ok (n, ts) =>
        match arguments isConst fuel ts with
        | .ok (args, ts) => directives isConst fuel (⟨n, args⟩ :: acc) ts
        | .error e => .error e
    else .ok (acc.reverse, ts)

/-- Variable definitions after `(`, up to `)`. -/
def variableList (fuel : Nat) (acc : List VariableDefinition) :
    Step (List VariableDefinition) := fun ts =>
  match fuel with
  | 0 => unexpected ts
  | fuel + 1 =>
    if (peek ts).kind == .parenR then .ok (acc.reverse, advance ts)
    else
      match expect .dollar ts with
      | .error e => .error e
      | .ok (_, ts) =>
        match name ts with
        | .error e => .error e
        | .ok (n, ts) =>
          match expect .colon ts with
          | .error e => .error e
          | .ok (_, ts) =>
            match typeRef fuel ts with
            | .error e => .error e
            | .ok (t, ts) =>
              let (hasDefault, ts) := skip .equals ts
              let dflt : Except SyntaxError (Option Literal × List Token) :=
                if hasDefault then
                  match value true fuel ts with
                  | .ok (v, ts) => .ok (some v, ts)
                  | .error e => .error e
                else .ok (none, ts)
              match dflt with
              | .error e => .error e
              | .ok (d, ts) =>
                match directives false fuel [] ts with
                | .ok (ds, ts) => variableList fuel (⟨n, t, d, ds⟩ :: acc) ts
                | .error e => .error e

/-- Optional variable definitions in parentheses. -/
def variableDefinitions (fuel : Nat) : Step (List VariableDefinition) := fun ts =>
  let (opened, ts) := skip .parenL ts
  if opened then variableList fuel [] ts else .ok ([], ts)

mutual

/-- A selection set that must be present: `{`, at least one selection, `}`. -/
def selectionSet (fuel : Nat) : Step (List Selection) := fun ts =>
  match fuel with
  | 0 => unexpected ts
  | fuel + 1 =>
    let t := peek ts
    if t.kind != .braceL then
      failAt t ("Expected " ++ TokenKind.braceL.describe ++ ", found " ++ t.kind.describe)
    else
      let ts := advance ts
      let t := peek ts
      if t.kind == .braceR then
        failAt t ("expected at least one definition, found " ++ t.kind.describe)
      else selectionList fuel [] ts

/-- Selections up to `}`. -/
def selectionList (fuel : Nat) (acc : List Selection) : Step (List Selection) := fun ts =>
  match fuel with
  | 0 => unexpected ts
  | fuel + 1 =>
    if (peek ts).kind == .braceR then .ok (acc.reverse, advance ts)
    else
      match selection fuel ts with
      | .ok (s, ts) => selectionList fuel (s :: acc) ts
      | .error e => .error e

/-- One selection: a field, a fragment spread or an inline fragment. -/
def selection (fuel : Nat) : Step Selection := fun ts =>
  match fuel with
  | 0 => unexpected ts
  | fuel + 1 =>
    let t := peek ts
    if t.kind == .spread then
      let ts := advance ts
      let next := peek ts
      if next.kind == .name && next.value != "on" then
        match name ts with
        | .error e => .error e
        | .ok (n, ts) =>
          match directives false fuel [] ts with
          | .ok (ds, ts) => .ok (.spread n ds, ts)
          | .error e => .error e
      else
        let cond : Except SyntaxError (String × List Token) :=
          if next.value == "on" then name (advance ts) else .ok ("", ts)
        match cond with
        | .error e => .error e
        | .ok (c, ts) =>
          match directives false fuel [] ts with
          | .error e => .error e
          | .ok (ds, ts) =>
            match selectionSet fuel ts with
            | .ok (ss, ts) => .ok (.inline c ds ss, ts)
            | .error e => .error e
    else
      match name ts with
      | .error e => .error e
      | .ok (first, ts) =>
        let named : Except SyntaxError (String × List Token) :=
          let (aliased, ts) := skip .colon ts
          if aliased then name ts else .ok (first, ts)
        match named with
        | .error e => .error e
        | .ok (n, ts) =>
          match arguments false fuel ts with
          | .error e => .error e
          | .ok (args, ts) =>
            match directives false fuel [] ts with
            | .error e => .error e
            | .ok (ds, ts) =>
              let sub : Except SyntaxError (List Selection × List Token) :=
                if (peek ts).kind == .braceL then selectionSet fuel ts else .ok ([], ts)
              match sub with
              | .ok (ss, ts) => .ok (.field ⟨first, n, args, ds, ss, t.location⟩, ts)
              | .error e => .error e

end

/-- An operation: a bare selection set, or a keyword, an optional name, variables,
directives and a selection set. -/
def operation (fuel : Nat) : Step Operation := fun ts =>
  let t := peek ts
  if t.kind == .braceL then
    match selectionSet fuel ts with
    | .ok (ss, ts) => .ok (⟨.query, "", [], [], ss⟩, ts)
    | .error e => .error e
  else
    let kind : Option OperationKind :=
      if t.value == "query" then some .query
      else if t.value == "mutation" then some .mutation
      else if t.value == "subscription" then some .subscription
      else none
    match kind with
    | none => failAt t ("Unexpected " ++ t.describe)
    | some kind =>
      let ts := advance ts
      let (n, ts) := if (peek ts).kind == .name then ((peek ts).value, advance ts) else ("", ts)
      match variableDefinitions fuel ts with
      | .error e => .error e
      | .ok (vs, ts) =>
        match directives false fuel [] ts with
        | .error e => .error e
        | .ok (ds, ts) =>
          match selectionSet fuel ts with
          | .ok (ss, ts) => .ok (⟨kind, n, vs, ds, ss⟩, ts)
          | .error e => .error e

/-- A fragment definition: `fragment Name (vars)? on Type directives { … }`. -/
def fragment (fuel : Nat) : Step Fragment := fun ts =>
  match expectKeyword "fragment" ts with
  | .error e => .error e
  | .ok (_, ts) =>
    let fragmentName : Except SyntaxError (String × List Token) :=
      if (peek ts).value == "on" then unexpected ts else name ts
    match fragmentName with
    | .error e => .error e
    | .ok (n, ts) =>
      match variableDefinitions fuel ts with
      | .error e => .error e
      | .ok (vs, ts) =>
        match expectKeyword "on" ts with
        | .error e => .error e
        | .ok (_, ts) =>
          match name ts with
          | .error e => .error e
          | .ok (c, ts) =>
            match directives false fuel [] ts with
            | .error e => .error e
            | .ok (ds, ts) =>
              match selectionSet fuel ts with
              | .ok (ss, ts) => .ok (⟨n, c, vs, ds, ss⟩, ts)
              | .error e => .error e

/-- Definitions up to the end of the document. -/
def definitions (fuel : Nat) (doc : Document) : Step Document := fun ts =>
  match fuel with
  | 0 => unexpected ts
  | fuel + 1 =>
    let t := peek ts
    match t.kind with
    | .eof => .ok ({ operations := doc.operations.reverse, fragments := doc.fragments.reverse }, ts)
    | .braceL =>
      match operation fuel ts with
      | .ok (op, ts) => definitions fuel { doc with operations := op :: doc.operations } ts
      | .error e => .error e
    | .name =>
      if t.value == "query" || t.value == "mutation" || t.value == "subscription" then
        match operation fuel ts with
        | .ok (op, ts) => definitions fuel { doc with operations := op :: doc.operations } ts
        | .error e => .error e
      else if t.value == "fragment" then
        match fragment fuel ts with
        | .ok (f, ts) => definitions fuel { doc with fragments := f :: doc.fragments } ts
        | .error e => .error e
      else unexpected ts
    | _ => unexpected ts

end Parser

/-- Reads a request document. Every grammar rule takes a token or stops within a few steps,
so a step budget proportional to the number of tokens suffices. -/
def Document.parse : DocumentParser := fun text =>
  let ts := tokenize text
  match Parser.definitions (8 * ts.length + 16) ⟨[], []⟩ ts with
  | .ok (doc, _) => .ok doc
  | .error e => .error e

end GraphWeave
