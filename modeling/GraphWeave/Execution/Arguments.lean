import GraphWeave.Execution.Input

/-!
Variables and arguments of a request, coerced before resolvers see them.
-/

namespace GraphWeave

/-- Why the variables of a request are refused. -/
inductive VariableError where
  | missing (name : String) (type : TypeRef)
  | null (name : String) (type : TypeRef)
  | invalid (name : String) (type : TypeRef) (cause : InputError)
deriving Repr, Inhabited

/-- The message of a variable error. -/
def VariableError.message : VariableError → String
  | .missing name type =>
    "variable $" ++ name ++ " of required type " ++ type.render ++ " was not provided"
  | .null name type => "variable $" ++ name ++ " of type " ++ type.render ++ " cannot be null"
  | .invalid name type cause =>
    "variable $" ++ name ++ " of type " ++ type.render ++ " cannot be coerced: " ++ cause.message

/-- Why the arguments of a field are refused. -/
inductive ArgumentError where
  | unknown (argument field : String)
  | invalid (argument : String) (cause : InputError)
  | invalidDefault (argument : String) (cause : InputError)
  | missing (argument : String) (type : TypeRef)
deriving Repr, Inhabited

/-- The message of an argument error. -/
def ArgumentError.message : ArgumentError → String
  | .unknown argument field => "unknown argument '" ++ argument ++ "' on field '" ++ field ++ "'"
  | .invalid argument cause => "argument '" ++ argument ++ "' cannot be coerced: " ++ cause.message
  | .invalidDefault argument cause =>
    "default value of argument '" ++ argument ++ "' cannot be coerced: " ++ cause.message
  | .missing argument type =>
    "argument '" ++ argument ++ "' of required type " ++ type.render ++ " was not provided"

namespace Schema

/-- Coerces the given variables to the operation's definitions, in the order defined. -/
def coerceVariables (s : Schema) (given : List (String × Value)) :
    List VariableDefinition → Except VariableError (List (String × Value)) :=
  go []
where
  go (acc : List (String × Value)) : List VariableDefinition → Except VariableError (List (String × Value))
    | [] => .ok acc
    | d :: rest =>
      let value? : Except VariableError (Option Value) :=
        match Value.lookup given d.name with
        | some v => .ok (some v)
        | none =>
          match d.default with
          | some lit => .ok (some (lit.toValue []))
          | none => if d.type.isNonNull then .error (.missing d.name d.type) else .ok none
      match value? with
      | .error e => .error e
      | .ok none => go acc rest
      | .ok (some v) =>
        if v.isNull && d.type.isNonNull then .error (.null d.name d.type)
        else
          match s.coerce v d.type with
          | .ok x => go (Value.assign acc d.name x) rest
          | .error e => .error (.invalid d.name d.type e)

/-- Coerces the arguments written on a field, then fills the ones not written from their
defaults. -/
def coerceArguments (s : Schema) (vars : List (String × Value)) (field : Field)
    (written : List (String × Literal)) : Except ArgumentError (List (String × Value)) :=
  match given [] written with
  | .error e => .error e
  | .ok acc => defaults acc field.arguments
where
  given (acc : List (String × Value)) :
      List (String × Literal) → Except ArgumentError (List (String × Value))
    | [] => .ok acc
    | (name, lit) :: rest =>
      match field.argument? name with
      | none => .error (.unknown name field.name)
      | some arg =>
        let absent := match lit with
          | .variable v => (Value.lookup vars v).isNone
          | _ => false
        if absent then given acc rest
        else
          match s.coerce (lit.toValue vars) arg.type with
          | .ok x => given (Value.assign acc name x) rest
          | .error e => .error (.invalid name e)
  defaults (acc : List (String × Value)) :
      List InputValue → Except ArgumentError (List (String × Value))
    | [] => .ok acc
    | arg :: rest =>
      if (Value.lookup acc arg.name).isSome then defaults acc rest
      else
        match arg.default with
        | some d =>
          match s.coerce d arg.type with
          | .ok x => defaults (Value.assign acc arg.name x) rest
          | .error e => .error (.invalidDefault arg.name e)
        | none =>
          if arg.type.isNonNull then .error (.missing arg.name arg.type) else defaults acc rest

end Schema

end GraphWeave
