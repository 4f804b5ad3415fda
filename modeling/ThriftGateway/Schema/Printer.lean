import ThriftGateway.Schema.DefaultLiteral

/-!
# Printing a schema

The schema in its own language: the types after one another with an empty line between them, each with its
description, its fields or its members.
-/

namespace ThriftGateway.Schema

open Graph (EnumMember GraphType InputField OutputField)

/-- A description before what it describes.  In a block, an empty line goes ahead of it unless it comes first. -/
def printDescription (description : Option String) (indent : String) (first : Bool) : String :=
  match description with
  | none => ""
  | some d =>
    let literal := Request.textLiteral d (Request.fitsBlock d)
    (if indent ≠ "" ∧ !first then "\n" else "") ++ indent ++ Request.indentLines indent literal ++ "\n"

/-- Lines between braces; nothing for no lines. -/
def printBlock (lines : List String) : String :=
  if lines.isEmpty then "" else " \x7b\n" ++ "\n".intercalate lines ++ "\n\x7d"

variable (s : TypeSystem)

/-- An argument, or a field of an input object, with its type and its default. -/
def printInputValue (f : InputField) : Except PrintError String := do
  let default ← match f.default with
    | none => pure none
    | some v => defaultLiteral s f.type v
  return f.name ++ ": " ++ s.written f.type ++ default.elim "" fun l => " = " ++ l.print

/-- Several of them after each other. -/
def printInputValues : List InputField → Except PrintError (List String)
  | [] => .ok []
  | f :: fs => do
    let p ← printInputValue s f
    return p :: (← printInputValues fs)

/-- Lines with descriptions ahead of them. -/
def describedLines (indent : String) : (first : Bool) → List (Option String × String) → List String
  | _, [] => []
  | first, (d, line) :: rest => (printDescription d indent first ++ indent ++ line) :: describedLines indent false rest

/-- The arguments of a field: in one line, or one a line if any has a description. -/
def printArguments (arguments : List InputField) : Except PrintError String := do
  if arguments.isEmpty then return ""
  let printed ← printInputValues s arguments
  if arguments.all fun a => a.description.all String.isEmpty then return "(" ++ ", ".intercalate printed ++ ")"
  let lines := describedLines "    " true ((arguments.map InputField.description).zip printed)
  return "(\n" ++ "\n".intercalate lines ++ "\n  )"

/-- Fields of an object. -/
def printFields : List OutputField → Except PrintError (List String)
  | [] => .ok []
  | f :: fs => do
    let arguments ← printArguments s f.arguments
    return (f.name ++ arguments ++ ": " ++ s.written f.type) :: (← printFields fs)

/-- A type. -/
def printDefinition : Definition → Except PrintError String
  | .scalar (.wide w) => .ok (printDescription (some w.description) "" true ++ "scalar " ++ w.name)
  | .scalar scalar => .ok ("scalar " ++ scalar.name)
  | .object name description fields => do
    let printed ← printFields s fields
    let lines := describedLines "  " true ((fields.map OutputField.description).zip printed)
    return printDescription description "" true ++ "type " ++ name ++ printBlock lines
  | .input name description fields => do
    let printed ← printInputValues s fields
    let lines := describedLines "  " true ((fields.map InputField.description).zip printed)
    return printDescription description "" true ++ "input " ++ name ++ printBlock lines
  | .enumeration name description members =>
    let lines := describedLines "  " true (members.map fun m => (m.description, m.name))
    .ok (printDescription description "" true ++ "enum " ++ name ++ printBlock lines)

/-- A type that every schema has. -/
def Definition.isStandard : Definition → Bool
  | .scalar (.wide _) => false
  | .scalar _ => true
  | _ => false

/-- The types of a schema that are its own. -/
def Schema.ownDefinitions (s : Schema) : List Definition := s.definitions.filter (!·.isStandard)

/-- Several types. -/
def printDefinitions : List Definition → Except PrintError (List String)
  | [] => .ok []
  | d :: ds => do
    let p ← printDefinition s d
    return p :: (← printDefinitions ds)

/-- The names that clients take for further root types if they are not told otherwise. -/
def otherRootNames : List String := ["Mutation", "Subscription"]

/-- Which type is the root; said only where another type could be taken for a root. -/
def Schema.printRoot (s : Schema) : List String :=
  if s.definitions.any fun d => otherRootNames.contains d.name then
    ["schema" ++ printBlock ["  query: " ++ rootName]]
  else []

/-- The schema in its own language, without a line end behind the last line. -/
def Schema.print (s : Schema) : Except PrintError String := do
  return "\n\n".intercalate (s.printRoot ++ (← printDefinitions s.system s.ownDefinitions))

end ThriftGateway.Schema
