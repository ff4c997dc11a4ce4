import GraphWeave.Cli.Command
import GraphWeave.Cli.Program
import GraphWeave.Json.Lenient
import GraphWeave.Json.Print
import GraphWeave.Server.Address
import GraphWeave.App

/-!
The command line of the schema server: `sdl` writes the composed schema, `query` runs one document
against it, and `serve` serves it over HTTP.
-/

namespace GraphWeave.Cli

open Modules

/-- The name of the program. -/
def programName : String := "gqlcompose"

/-- The version of the program. -/
def programVersion : String := "0.1.0"

/-- The level of the log, shared by every command. -/
def logLevelFlag : Flag :=
  { name := "log-level", kind := .text, usage := "log level (debug, info, warn, error)" }

/-- `sdl`: write the composed schema. -/
def sdlCommand : Command :=
  { name := "sdl", summary := "Write the composed schema in SDL", arity := .none
    flags := [{ name := "out", kind := .text, usage := "output file, or \"-\" for stdout"
                default := "schema.graphql" }] }

/-- `query`: run one document. -/
def queryCommand : Command :=
  { name := "query", usage := "<document>", arity := .exactly 1
    summary := "Execute one GraphQL document and print the JSON response (\"-\" reads stdin)"
    flags := [
      { name := "variables", kind := .text, usage := "variables as a JSON object" },
      { name := "operation", kind := .text, usage := "operation name" },
      { name := "header", kind := .texts, usage := "forwarded header as name=value; repeatable" },
      { name := "pretty", kind := .switch, usage := "indent the JSON response", default := "false" }] }

/-- `serve`: serve the schema over HTTP. -/
def serveCommand : Command :=
  { name := "serve", summary := "Serve the composed schema over HTTP", arity := .none
    flags := [{ name := "addr", kind := .text, usage := "listen address", default := ":8080" }] }

/-- `help`: the help of any command. -/
def helpCommand : Command :=
  { name := "help", usage := "[command]", summary := "Help about any command", available := false
    description := "Help provides help for any command in the application.\nSimply type " ++
      programName ++ " help [path to command] for full details." }

/-- A shell that `completion` writes a script for. -/
def shellCommand (shell : String) : Command :=
  { name := shell, arity := .none
    summary := "Generate the autocompletion script for " ++ shell
    flags := [{ name := "no-descriptions", kind := .switch, usage := "disable completion descriptions"
                default := "false" }] }

/-- `completion`: scripts for shells. -/
def completionCommand : Command :=
  { name := "completion", arity := .none, runnable := false
    summary := "Generate the autocompletion script for the specified shell"
    description := "Generate the autocompletion script for " ++ programName ++
      " for the specified shell.\nSee each sub-command's help for details on how to use the generated script.\n"
    subcommands := ["bash", "fish", "powershell", "zsh"].map shellCommand }

/-- The whole command line. -/
def rootCommand : Command :=
  { name := programName, version := programVersion, runnable := false
    summary := "Compose a GraphQL schema from independent modules and serve it"
    shared := [logLevelFlag]
    subcommands := [sdlCommand, queryCommand, serveCommand, helpCommand, completionCommand] }

/-- Running a command: it may fail with a message, and it writes log records through a logger
that keeps its sampling counts. -/
abbrev Run := ExceptT String (StateT Telemetry.Logger Program)

/-- Makes a request of the system. -/
def ask {β : Type} (r : Effect β) : Run β := monadLift (Program.ask r)

/-- Writes a record, if the logger lets it through. -/
def logRecord (record : Telemetry.LogRecord) : Run Unit := do
  let (written, logger) := (← get).offer record
  set logger
  if written then ask (.log record)

/-- Assembles the application's schema, logging what the registry did, and then the number of
modules and types. -/
def assembleSchema : Run (ExecutableSchema AppState) := do
  let (result, records) := App.assembleLogged App.modules Root.queryType Root.mutationType ""
  for r in records do logRecord r
  match result with
  | .error e => throw ("assembling schema: " ++ e.message)
  | .ok s =>
    logRecord (.info "schema assembled" [("modules", .number App.modules.length),
      ("types", .number s.raw.types.length)])
    pure s

/-- Writes the schema to a file, or to the standard output for `-`. -/
def runSdl (out : String) : Run Unit := do
  let s ← assembleSchema
  if out == "-" then ask (.print s.sdl)
  else
    match ← ask (.writeFile out s.sdl) with
    | .error e => throw ("open " ++ out ++ ": " ++ e.reason)
    | .ok () => logRecord (.info "schema written" [("path", .text out)])

/-- Adds a value to a metadata name, lower-cased. -/
def appendMetadata (md : Metadata) (name value : String) : Metadata :=
  let key := lowerCase name
  if md.any (·.1 == key) then md.map fun (k, vs) => if k == key then (k, vs ++ [value]) else (k, vs)
  else md ++ [(key, [value])]

/-- Reads headers written as `name=value` into metadata. -/
def headersOf (headers : List String) : Except String Metadata :=
  headers.foldlM (fun md h =>
    match h.splitOn "=" with
    | name :: value :: more =>
      if name.isEmpty then .error ("invalid --header " ++ Quoted.encode h ++ ", want name=value")
      else .ok (appendMetadata md name ("=".intercalate (value :: more)))
    | _ => .error ("invalid --header " ++ Quoted.encode h ++ ", want name=value")) []

/-- The JSON text of a response, indented when asked, with a line break after it. -/
def responseText (pretty : Bool) (j : Json) : String :=
  (if pretty then Json.renderIndented "" j else Json.render j) ++ "\n"

/-- Runs one document, read by a parser, and prints the response. -/
def runQuery (parse : DocumentParser) (document variablesText operation : String)
    (headers : List String) (pretty : Bool) : Run Unit := do
  let document ← if document == "-" then ask .readInput else pure document
  let vars ← if variablesText.isEmpty then pure [] else
    match Json.Lenient.variableValues variablesText with
    | .ok vs => pure vs
    | .error e => throw ("invalid --variables: " ++ e)
  let metadata ← match headersOf headers with
    | .ok md => pure md
    | .error e => throw e
  let s ← assembleSchema
  let request : GraphWeave.Request :=
    { query := document, operationName := operation, variableValues := vars, root := App.root,
      metadata := metadata }
  let (result, session) := (s.execute parse request).run { store := {} }
  if session.hung then ask .hang
  ask (.print (responseText pretty result.toJson))
  if !result.errors.isEmpty then throw "response contains errors"

/-- Serves the schema on an address until stopped. -/
def runServe (address : String) : Run Unit := do
  let _ ← assembleSchema
  logRecord (.info "starting gqlcompose" [("addr", .text address), ("version", .text programVersion)])
  logRecord (.info "starting server" [("addr", .text address)])
  match Server.checkListen address with
  | .error e => throw ("server error: listen tcp: " ++ e.message)
  | .ok _ =>
    match ← ask (.serve address) with
    | .error e => throw ("server error: " ++ e)
    | .ok () => logRecord (.info "shutting down server")

/-- A help topic as written in a message: in back quotes, or in double quotes when it holds a
back quote or a control character. -/
def topicText (word : String) : String :=
  if word.any fun c => c.toNat == 96 || (c.toNat < 32 && c != '\t') || c.toNat == 127 then
    Quoted.encode word
  else "`" ++ word ++ "`"

/-- Prints the help of the command that words name, or says there is none. -/
def runHelp (words : List String) : Run Unit :=
  match find rootCommand words with
  | .ok (p, _) => ask (.print p.helpText)
  | .error _ => do
    ask (.report ("Unknown help topic [" ++ " ".intercalate (words.map topicText) ++ "]\n"))
    ask (.report (CommandPath.usageText [rootCommand]))

/-- Runs the command at the end of a path with what its line set. -/
def runCommand (parse : DocumentParser) (p : CommandPath) (parsed : Parsed) (config : Config) :
    Run Unit :=
  let flags := p.allFlags
  match p.map (·.name) with
  | [_, "sdl"] =>
    runSdl (if parsed.changed "out" then parsed.text flags "out" else config.sdlOut)
  | [_, "query"] =>
    runQuery parse (parsed.arguments.headD "") (parsed.text flags "variables")
      (parsed.text flags "operation") (parsed.given "header")
      (parsed.switch "pretty" || config.pretty)
  | [_, "serve"] =>
    runServe (if parsed.changed "addr" then parsed.text flags "addr" else config.addr)
  | [_, "help"] => runHelp parsed.arguments
  | _ => pure ()

/-- Handles a found command with the words left for it. -/
def execute (parse : DocumentParser) (p : CommandPath) (words : List String)
    (env : List (String × String)) : Run Unit := do
  let parsed ← match parseFlags p.allFlags words with
    | .ok parsed => pure parsed
    | .error e => throw e
  if parsed.switch "help" then return ← ask (.print p.helpText)
  if !p.last.version.isEmpty && parsed.switch "version" then
    return ← ask (.print (p.last.name ++ " version " ++ p.last.version ++ "\n"))
  if !p.last.runnable then return ← ask (.print p.helpText)
  match checkArity p parsed.arguments with
  | .error e => throw e
  | .ok () => pure ()
  let config ← match Config.load env with
    | .ok c => pure c
    | .error e => throw e
  let flagLevel := parsed.text p.allFlags "log-level"
  let level ← match Telemetry.Level.parse (if flagLevel.isEmpty then config.logLevel else flagLevel) with
    | .ok l => pure l
    | .error e => throw e
  set ({ level } : Telemetry.Logger)
  runCommand parse p parsed config

/-- The program of a command line with its arguments and environment, reading documents with
a parser; it ends with the exit status. -/
def program (parse : DocumentParser) (args : List String) (env : List (String × String)) :
    Program Nat := do
  match find rootCommand args with
  | .error e => do
    Program.ask (.report ("Error: " ++ e.message ++ "\n"))
    Program.ask (.report ("Run '" ++ e.path.text ++ " --help' for usage.\n"))
    pure 1
  | .ok (p, words) =>
    let (result, _) ← (execute parse p words env).run.run { level := .info }
    match result with
    | .ok () => pure 0
    | .error e => do
      Program.ask (.report ("Error: " ++ e ++ "\n"))
      pure 1

end GraphWeave.Cli
