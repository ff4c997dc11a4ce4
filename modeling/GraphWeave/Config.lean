import GraphWeave.Time.Duration
import GraphWeave.Text.Quoted

/-!
Process configuration from environment variables named `GQLCOMPOSE_<KEY>`.
-/

namespace GraphWeave

/-- The configuration of the process. -/
structure Config where
  addr : String := ""
  pretty : Bool := false
  requestTimeout : Duration := ⟨0⟩
  maxBodyBytes : Int := 0
  corsOrigins : List String := []
  metadataHeaders : List String := []
  sdlOut : String := ""
  logLevel : String := ""
  otelEndpoint : String := ""
  otelProtocol : String := ""
  serviceName : String := ""
deriving Repr, Inhabited

namespace Config

/-- Reads a Boolean text. -/
def parseBool (s : String) : Except String Bool :=
  if ["1", "t", "T", "TRUE", "true", "True"].contains s then .ok true
  else if ["0", "f", "F", "FALSE", "false", "False"].contains s then .ok false
  else .error ("strconv.ParseBool: parsing " ++ Quoted.encode s ++ ": invalid syntax")

/-- Whether the underscores of an unsigned integer text only separate digits, or a base prefix
from a digit. -/
def underscoresOk (s : List Char) : Bool :=
  let (hex, rest, start) := match s with
    | '0' :: c :: rest =>
      let l := c.toLower
      if l == 'b' || l == 'o' || l == 'x' then (l == 'x', rest, '0') else (false, s, '^')
    | _ => (false, s, '^')
  let last := rest.foldl (fun (saw : Option Char) c =>
    match saw with
    | none => none
    | some saw =>
      if c.isDigit || (hex && 'a' ≤ c.toLower && c.toLower ≤ 'f') then some '0'
      else if c == '_' then (if saw == '0' then some '_' else none)
      else if saw == '_' then none
      else some '!') (some start)
  match last with
  | none => false
  | some saw => saw != '_'

/-- The value of a digit character in bases up to 36. -/
def digitValue (c : Char) : Nat :=
  if c.isDigit then c.toNat - '0'.toNat
  else if 'a' ≤ c.toLower && c.toLower ≤ 'z' then c.toLower.toNat - 'a'.toNat + 10
  else 36

/-- Why an integer text does not read. -/
inductive IntError where
  | malformed
  | outOfRange

/-- Reads an unsigned integer text with an optional base prefix, below `2 ^ 64`. -/
def parseUnsigned (s : List Char) : Except IntError Nat :=
  if s.isEmpty then .error .malformed
  else
    let (base, digits) := match s with
      | '0' :: c :: d :: rest =>
        let l := c.toLower
        if l == 'b' then (2, d :: rest)
        else if l == 'o' then (8, d :: rest)
        else if l == 'x' then (16, d :: rest)
        else (8, c :: d :: rest)
      | '0' :: rest => (8, rest)
      | _ => (10, s)
    let step := fun (acc : Except IntError (Nat × Bool)) (c : Char) =>
      match acc with
      | .error e => .error e
      | .ok (n, grouped) =>
        if c == '_' then .ok (n, true)
        else
          let d := digitValue c
          if d ≥ base then .error .malformed
          else
            let n := n * base + d
            if n ≥ Nat.pow 2 64 then .error .outOfRange else .ok (n, grouped)
    match digits.foldl step (.ok (0, false)) with
    | .error e => .error e
    | .ok (n, grouped) => if grouped && !underscoresOk s then .error .malformed else .ok n

/-- Reads a signed 64-bit integer text with an optional base prefix. -/
def parseInt64 (s : String) : Except String Int :=
  let failure (why : String) : Except String Int :=
    .error ("strconv.ParseInt: parsing " ++ Quoted.encode s ++ ": " ++ why)
  let (negative, rest) := match s.toList with
    | '-' :: rest => (true, rest)
    | '+' :: rest => (false, rest)
    | cs => (false, cs)
  match parseUnsigned rest with
  | .error .malformed => failure "invalid syntax"
  | .error .outOfRange => failure "value out of range"
  | .ok n =>
    if !negative && n ≥ Nat.pow 2 63 then failure "value out of range"
    else if negative && n > Nat.pow 2 63 then failure "value out of range"
    else .ok (if negative then -(n : Int) else n)

/-- Whether a character is white space: the ASCII blanks and line breaks, next line, no-break
space, the other space separators, and the line and paragraph separators. -/
def isSpace (c : Char) : Bool :=
  let n := c.toNat
  (0x09 ≤ n && n ≤ 0x0D) || n == 0x20 || n == 0x85 || n == 0xA0 || n == 0x1680 ||
    (0x2000 ≤ n && n ≤ 0x200A) || n == 0x2028 || n == 0x2029 || n == 0x202F || n == 0x205F ||
    n == 0x3000

/-- A list text: comma-separated items, nothing when it is blank. -/
def parseList (s : String) : List String :=
  if s.all isSpace then [] else s.splitOn ","

/-- A setting: its key, the field it sets, the type it reads, its default, and how it reads. -/
structure Setting where
  key : String
  field : String
  typeName : String
  default : Option String
  assign : Config → String → Except String Config

/-- The settings, in the order they are read. -/
def settings : List Setting :=
  [⟨"ADDR", "Addr", "string", some ":8080", fun c s => .ok { c with addr := s }⟩,
   ⟨"PRETTY", "Pretty", "bool", some "false",
     fun c s => (parseBool s).map fun b => { c with pretty := b }⟩,
   ⟨"REQUEST_TIMEOUT", "RequestTimeout", "time.Duration", some "10s",
     fun c s => match Duration.parse s with
       | .ok d => .ok { c with requestTimeout := d }
       | .error e => .error e.message⟩,
   ⟨"MAX_BODY_BYTES", "MaxBodyBytes", "int64", some "1048576",
     fun c s => (parseInt64 s).map fun n => { c with maxBodyBytes := n }⟩,
   ⟨"CORS_ORIGINS", "CORSOrigins", "[]string", none,
     fun c s => .ok { c with corsOrigins := parseList s }⟩,
   ⟨"METADATA_HEADERS", "MetadataHeaders", "[]string", none,
     fun c s => .ok { c with metadataHeaders := parseList s }⟩,
   ⟨"SDL_OUT", "SDLOut", "string", some "schema.graphql", fun c s => .ok { c with sdlOut := s }⟩,
   ⟨"LOG_LEVEL", "LogLevel", "string", some "info", fun c s => .ok { c with logLevel := s }⟩,
   ⟨"OTEL_ENDPOINT", "OTELEndpoint", "string", none, fun c s => .ok { c with otelEndpoint := s }⟩,
   ⟨"OTEL_PROTOCOL", "OTELProtocol", "string", some "grpc",
     fun c s => .ok { c with otelProtocol := s }⟩,
   ⟨"SERVICE_NAME", "ServiceName", "string", some "gqlcompose",
     fun c s => .ok { c with serviceName := s }⟩]

/-- The prefix of every variable name. -/
def prefixName : String := "GQLCOMPOSE"

/-- Applies a setting from the environment. -/
def Setting.apply (env : List (String × String)) (c : Config) (s : Setting) : Except String Config :=
  let key := prefixName ++ "_" ++ s.key
  let found := match env.lookup key with
    | some v => some v
    | none => env.lookup s.key
  match found.orElse fun _ => s.default with
  | none => .ok c
  | some v =>
    (s.assign c v).mapError fun detail =>
      "envconfig.Process: assigning " ++ key ++ " to " ++ s.field ++ ": converting '" ++ v ++
        "' to type " ++ s.typeName ++ ". details: " ++ detail

/-- Checks a loaded configuration. -/
def validate (c : Config) : Except String Unit :=
  if c.otelProtocol != "grpc" && c.otelProtocol != "http" then
    .error ("OTEL_PROTOCOL must be grpc or http, got " ++ Quoted.encode c.otelProtocol)
  else if c.requestTimeout.nanos < 0 then
    .error ("REQUEST_TIMEOUT must not be negative, got " ++ c.requestTimeout.render)
  else if c.maxBodyBytes < 0 then
    .error ("MAX_BODY_BYTES must not be negative, got " ++ toString c.maxBodyBytes)
  else .ok ()

/-- Loads the configuration from an environment. -/
def load (env : List (String × String)) : Except String Config :=
  let loaded := do
    let c ← settings.foldlM (Setting.apply env) {}
    validate c
    pure c
  loaded.mapError ("loading config: " ++ ·)

end Config

end GraphWeave
