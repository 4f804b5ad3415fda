import ThriftGateway.Command.Words
import ThriftGateway.Failure
import ThriftGateway.Schema.Printer
import ThriftGateway.Value.Json

/-!
# Running the command

The command writes the schema of the services of a configuration, or of a single file, as a text.  `run` takes the
files there are and the words of the command line, and gives what is printed and which files there are afterwards.
-/

namespace ThriftGateway.Command

open Source (FileError FileTree Path)

/-- The name of the program. -/
def programName : String := "thrift_to_graphql"

/-- The version of the program. -/
def version : String := "0.3.0"

/-- Why a command line that is used as it should be comes to nothing. -/
inductive CommandError where
  /-- A file cannot be looked for, read or written. -/
  | file (error : FileError)
  /-- The configuration file is no text. -/
  | notText (fault : Text.Utf8Fault)
  /-- The configuration file is not JSON. -/
  | json (error : Value.JsonError)
  | config (error : ConfigError)
  | generation (error : Schema.GenerationError)
  | print (error : Schema.PrintError)
  deriving Repr

namespace CommandError

/-- The words for an error; `halves` are the stand-ins in its path. -/
def message (e : CommandError) (halves : Text.StandIns := {}) : String :=
  match e with
  | file e => e.message
  | notText fault => "The configuration is not UTF-8: " ++ fault.reason
  | json e => e.message
  | config e => e.message
  | generation e => e.message halves
  | print e => e.message

/-- The file for the lack of which services cannot be loaded. -/
def missingFile? : CommandError → Option Path
  | generation (.load (.file (.notFound path))) => some (Path.root.resolve path)
  | _ => none

end CommandError

/-- Why a command line comes to nothing. -/
inductive Stop where
  | misused (error : UsageError)
  | failed (error : CommandError)

/-- What a well-formed command line asks for. -/
structure Settings where
  /-- The configuration file. -/
  config : Option Path
  allMethods : Bool
  convertEnumToInt : Bool
  verbose : Bool
  source : Path
  /-- The file to write; without one the schema is printed. -/
  target : Option Path
  deriving DecidableEq, Repr

/-- The path that a word of the command line leads to. -/
def pathOf (t : FileTree) (written : String) : Except Stop Path :=
  if Source.isPassable written then .ok (t.working.resolve written) else .error (.failed (.file .nullCharacter))

/-- The configuration file that is asked for; it has to be there. -/
def configFile (t : FileTree) : Option String → Except Stop (Option Path)
  | none => .ok none
  | some written => do
    let p ← pathOf t written
    if !t.contains p then throw (.misused (.configMissing written))
    if (t.file? p).isNone then throw (.misused (.configIsDirectory written))
    return some p

/-- What the words of a command line ask for. -/
def Words.settings (t : FileTree) (w : Words) : Except Stop Settings := do
  let config ← configFile t w.config
  match w.operands with
  | [] => throw (.misused (.operandMissing "PATH"))
  | path :: operands =>
    let source ← pathOf t path
    if !t.contains source then throw (.misused (.pathMissing "PATH" path))
    match operands with
    | [] => throw (.misused (.operandMissing "OUTPUT"))
    | output :: surplus =>
      let target ← if output = "-" then pure none else (pathOf t output).map some
      if !surplus.isEmpty then throw (.misused (.surplusOperands surplus))
      return { config, source, target
               allMethods := w.has .allMethods
               convertEnumToInt := w.has .convertEnumToInt
               verbose := w.has .verbose }

/-! ### The command line in the schema -/

/-- A path as the command line is told: a file or directory that is there by its name alone. -/
def shownPath (t : FileTree) (p : Path) : String := if t.contains p then p.name else p.text

/-- The command line that asks for the settings: first the operands, then the options. -/
def Settings.commandLine (t : FileTree) (s : Settings) : String :=
  " ".intercalate ([programName, shownPath t s.source, s.target.elim "-" (shownPath t)] ++
    s.config.elim [] (fun c => [Switch.config.word, shownPath t c]) ++
    (if s.allMethods then [Switch.allMethods.word] else []) ++
    (if s.convertEnumToInt then [Switch.convertEnumToInt.word] else []) ++
    (if s.verbose then [Switch.verbose.word] else []))

/-- The line that tells how a schema was made. -/
def Settings.comment (t : FileTree) (s : Settings) : String :=
  "# Generated by " ++ programName ++ " v" ++ version ++ " : " ++ s.commandLine t

/-- A text that ends with a line end. -/
def endLine (s : String) : String := if s.toList.getLast? = some '\n' then s else s ++ "\n"

/-! ### The configuration -/

/-- A value as notices show it, with the escapes of halves in a text. -/
def escapeIn (halves : Text.StandIns) : Value → Value
  | .text s => .text (Text.escapeHalves halves s)
  | v => v

/-- The configuration with the names of services and functions as notices show them.  An escape is no part of a
function's name, so a name with a half still names no function. -/
def escapeNames (halves : Text.StandIns) (c : Config) : Config :=
  { c with services := c.services.map fun (name, s) =>
      (escapeIn halves name, { s with methods := s.methods.map fun (m, hooks) => (escapeIn halves m, hooks) }) }

/-- The configuration in a file, and what stands for halves of characters in the paths of its services: characters
that are neither in the file nor in the path that the services are located by. -/
def readConfig (t : FileTree) (source p : Path) : Except CommandError (Config × Text.StandIns) := do
  let bytes ← (t.read p).mapError .file
  let cs ← (Text.decode bytes).mapError fun e => .notText e.1
  let halves : Text.StandIns := .freeOf (Value.jsonCharacters cs ++ source.text.toList)
  let v ← (Value.ofJson halves (Text.unixLines cs)).mapError .json
  let c ← (Config.ofValue v).mapError .config
  return (escapeNames halves c, halves)

/-- The configuration for the first service of a file and all of its functions. -/
def forFile (c : Config) (p : Path) : Config :=
  { c with
    idlPath := .text p.parent.text
    services := [(.text (Source.dropSuffix p.name),
      { file := .text p.name, consul := .text "", servers := [], methods := [] })]
    strict := .bool false }

/-- Where the services of the configuration are: in the directory that is named, or that of the file that is.  None
if there are no services and no file. -/
def locate (t : FileTree) (c : Config) (source : Path) : Option Config :=
  if c.services.isEmpty then if t.isDirectory source then none else some (forFile c source)
  else some { c with idlPath := .text (if t.isDirectory source then source else source.parent).text }

/-- The configuration with what the options say. -/
def Settings.apply (s : Settings) (c : Config) : Config :=
  { c with
    strict := if s.allMethods then .bool false else c.strict
    convertEnumToInt := if s.convertEnumToInt then .bool true else c.convertEnumToInt }

/-! ### Running -/

/-- How a run ends. -/
inductive Ending where
  /-- A text is printed, and there are these files. -/
  | done (printed : String) (tree : FileTree)
  | stopped (reason : Stop)

/-- A run of the command: the notices that are shown, how it ends, and what stands for halves of characters in the
path of an error. -/
structure Run where
  notices : List Notice
  ending : Ending
  halves : Text.StandIns := {}

/-- The schema as a text, from the configuration that the services are located by. -/
def schemaText (t : FileTree) (s : Settings) (c : Config) (schema : Schema.Schema) : Except CommandError String := do
  let text ← schema.print.mapError .print
  return endLine (if c.addGenerationComment.isTrue then s.comment t ++ "\n\n" ++ text else text)

/-- Prints a text or writes it to a file. -/
def deliver (t : FileTree) (target : Option Path) (text : String) : Ending :=
  match target with
  | none => .done text t
  | some p =>
    match t.writeFile p (Text.encode text) with
    | .ok t => .done "" t
    | .error e => .stopped (.failed (.file e))

/-- Does what well-formed settings ask for. -/
def Settings.run (t : FileTree) (s : Settings) : Run :=
  match s.config.elim (.ok ({}, {})) (readConfig t s.source) with
  | .error e => { notices := [], ending := .stopped (.failed e) }
  | .ok (c, halves) =>
    match locate t c s.source with
    | none => { notices := [], ending := .stopped (.misused .fileRequired) }
    | some c =>
      let c := s.apply c
      let g := Schema.generate { t with halves } c Graph.declaredName Graph.joinedName false
      let notices := g.log.filter fun n => s.verbose || n.severity = .warning
      match g.outcome with
      | .error e => { notices, ending := .stopped (.failed (.generation e)), halves }
      | .ok schema =>
        match schemaText t s c schema with
        | .error e => { notices, ending := .stopped (.failed e), halves }
        | .ok text => { notices, ending := deliver t s.target text, halves }

/-- Runs the command. -/
def run (t : FileTree) (args : List String) : Run :=
  match Words.read args with
  | .error e => { notices := [], ending := .stopped (.misused e) }
  | .ok w =>
    if w.has .help then { notices := [], ending := .done helpText t }
    else
      match w.settings t with
      | .error reason => { notices := [], ending := .stopped reason }
      | .ok s => s.run t

namespace Run

/-- The exit code: 2 for misuse and 1 for failure. -/
def exitCode (r : Run) : Nat :=
  match r.ending with
  | .done .. => 0
  | .stopped (.failed _) => 1
  | .stopped (.misused _) => 2

/-- What is printed. -/
def output (r : Run) : String :=
  match r.ending with
  | .done printed _ => printed
  | _ => ""

/-- What is reported beside the output. -/
def report (r : Run) : String :=
  let notices := String.join (r.notices.map fun n => n.line ++ "\n")
  let misuse := match r.ending with
    | .stopped (.misused e) => e.text
    | _ => ""
  notices ++ misuse

/-- The files that the run has written. -/
def written (r : Run) (t : FileTree) : List (Path × List UInt8) :=
  match r.ending with
  | .done _ after => after.changedSince t
  | _ => []

end Run

end ThriftGateway.Command
