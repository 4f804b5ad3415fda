import ThriftGateway.Command.Similarity
import ThriftGateway.Text.Quoted

/-!
# The words of a command line

`Words.read` tells the options of a command line from its operands.  Options may stand anywhere before `--`.  A short
option may share a word with others, and a value may share it with its option: `-vc x`, `-cx`, `--config=x`.
-/

namespace ThriftGateway.Command

/-- The options. -/
inductive Switch where
  | config
  | allMethods
  | convertEnumToInt
  | verbose
  | help
  deriving DecidableEq, Repr

namespace Switch

/-- All options, as the help lists them. -/
def all : List Switch := [config, allMethods, convertEnumToInt, verbose, help]

/-- The option in full. -/
def word : Switch → String
  | config => "--config"
  | allMethods => "--all-methods"
  | convertEnumToInt => "--convert-enum-to-int"
  | verbose => "--verbose"
  | help => "--help"

/-- The letter of the option, if it has a short form. -/
def letter? : Switch → Option Char
  | config => some 'c'
  | verbose => some 'v'
  | _ => none

/-- Only `--config` takes a value. -/
def takesValue (s : Switch) : Bool := s = config

/-- The option with a full form. -/
def ofWord? (w : String) : Option Switch := all.find? fun s => s.word = w

/-- The option with a short form. -/
def ofLetter? (c : Char) : Option Switch := all.find? fun s => s.letter? = some c

end Switch

/-- What is wrong with how the command is called. -/
inductive UsageError where
  | unknownOption (option : String) (similar : List String)
  | valueMissing (option : String)
  | valueUnwanted (option : String)
  | operandMissing (operand : String)
  | surplusOperands (words : List String)
  | pathMissing (operand written : String)
  | configMissing (written : String)
  | configIsDirectory (written : String)
  /-- A configuration without services says nothing about a directory. -/
  | fileRequired
  deriving DecidableEq, Repr

/-- The options and operands of a command line. -/
structure Words where
  /-- The last value of `--config`. -/
  config : Option String := none
  /-- The options without a value, as often as they are given. -/
  switches : List Switch := []
  operands : List String := []
  /-- The option whose value is the next word, as it is written. -/
  waiting : Option String := none
  deriving DecidableEq, Repr

namespace Words

/-- Whether an option without a value is given. -/
def has (w : Words) (s : Switch) : Bool := w.switches.contains s

/-- Takes up short options that share a word. -/
def readLetters (w : Words) : List Char → Except UsageError Words
  | [] => .ok w
  | c :: cs =>
    match Switch.ofLetter? c with
    | none => .error (.unknownOption (String.ofList ['-', c]) [])
    | some s =>
      if s.takesValue then
        .ok (if cs.isEmpty then { w with waiting := some (String.ofList ['-', c]) }
          else { w with config := some (String.ofList cs) })
      else readLetters { w with switches := w.switches ++ [s] } cs

/-- Takes up an option in full, with the value that shares its word. -/
def readLong (w : Words) (option : String) (value : Option String) : Except UsageError Words :=
  match Switch.ofWord? option with
  | none => .error (.unknownOption option ((Switch.all.map Switch.word).filter (isSimilar · option)))
  | some s =>
    if s.takesValue then
      match value with
      | none => .ok { w with waiting := some option }
      | some v => .ok { w with config := some v }
    else
      match value with
      | none => .ok { w with switches := w.switches ++ [s] }
      | some _ => .error (.valueUnwanted option)

/-- Takes up one word that is no value. -/
def step (w : Words) (word : String) : Except UsageError Words :=
  match word.toList with
  | '-' :: '-' :: cs =>
    let option := String.ofList ('-' :: '-' :: cs.takeWhile (· ≠ '='))
    match cs.dropWhile (· ≠ '=') with
    | _ :: value => w.readLong option (some (String.ofList value))
    | [] => w.readLong option none
  | '-' :: c :: cs => w.readLetters (c :: cs)
  | _ => .ok { w with operands := w.operands ++ [word] }

/-- Takes up the words of a command line.  After `--` there are operands only. -/
def readFrom (w : Words) : List String → Except UsageError Words
  | [] =>
    match w.waiting with
    | some option => .error (.valueMissing option)
    | none => .ok w
  | word :: rest =>
    if w.waiting.isSome then readFrom { w with config := some word, waiting := none } rest
    else if word = "--" then .ok { w with operands := w.operands ++ rest }
    else
      match w.step word with
      | .error e => .error e
      | .ok w => readFrom w rest

/-- The options and operands of a command line. -/
def read (args : List String) : Except UsageError Words := readFrom {} args

end Words

/-! ### Messages -/

/-- The name that the command is called by in messages about its usage. -/
def commandName : String := "thrift-to-graphql"

/-- How the command is called. -/
def usageLine : String := "Usage: " ++ commandName ++ " [OPTIONS] PATH OUTPUT\n"

namespace UsageError

/-- Options that an unknown one may have been meant for. -/
def suggestion (similar : List String) : String :=
  match (similar.mergeSort fun a b => a ≤ b).map Text.quoted with
  | [] => ""
  | [one] => " Did you mean " ++ one ++ "?"
  | several => " (Possible options: " ++ ", ".intercalate several ++ ")"

/-- A value that an operand or option cannot have. -/
def invalidValue (hint reason : String) : String := "Invalid value for " ++ hint ++ ": " ++ reason

/-- The options of the configuration file, as messages name them. -/
def configHint : String := "'--config' / '-c'"

/-- The words for an error. -/
def message : UsageError → String
  | unknownOption option similar => "No such option " ++ Text.quoted option ++ "." ++ suggestion similar
  | valueMissing option => "Option " ++ Text.quoted option ++ " requires an argument."
  | valueUnwanted option => "Option " ++ Text.quoted option ++ " does not take a value."
  | operandMissing operand => "Missing argument '" ++ operand ++ "'."
  | surplusOperands words =>
    "Got unexpected extra argument" ++ (if words.length = 1 then "" else "s") ++ " (" ++ " ".intercalate words ++ ")"
  | pathMissing operand written =>
    invalidValue ("'" ++ operand ++ "'") ("Path " ++ Text.quoted written ++ " does not exist.")
  | configMissing written => invalidValue configHint ("File " ++ Text.quoted written ++ " does not exist.")
  | configIsDirectory written => invalidValue configHint ("File " ++ Text.quoted written ++ " is a directory.")
  | fileRequired => invalidValue "PATH" "a Thrift file is required when the config lists no services"

/-- An error in the form of a single option is told without how the command is called. -/
def showsUsage : UsageError → Bool
  | valueMissing _ | valueUnwanted _ => false
  | _ => true

/-- What is printed for an error. -/
def text (e : UsageError) : String :=
  (if e.showsUsage then usageLine ++ "Try '" ++ commandName ++ " --help' for help.\n\n" else "") ++
    "Error: " ++ e.message ++ "\n"

end UsageError

/-- The help. -/
def helpText : String := usageLine ++ "
  Write the GraphQL SDL of the service in PATH to OUTPUT ('-' for stdout).

  When the config lists services, PATH is the directory their files are relative
  to.

Options:
  -c, --config FILE
  --all-methods          Expose every service method, not only the configured
                         ones
  --convert-enum-to-int  Compile enums to Int
  -v, --verbose          Log loaded files and skipped methods
  --help                 Show this message and exit.
"

end ThriftGateway.Command
