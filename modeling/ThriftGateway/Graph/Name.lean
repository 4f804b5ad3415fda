import ThriftGateway.Text.Ascii
import ThriftGateway.Text.Quoted

/-!
# Names in the graph of types

Names of types, fields, arguments and enumeration members consist of letters, digits and underscores and do not
begin with a digit.
-/

namespace ThriftGateway.Graph

open Text (isNameStart isNamePart)

/-- Why a text cannot be a name. -/
inductive NameError where
  | empty
  | badCharacter (name : String)
  | badStart (name : String)
  /-- The name is a literal of its own. -/
  | reservedWord (name : String)
  deriving DecidableEq, Repr

/-- The words for an error. -/
def NameError.message : NameError → String
  | empty => "Expected name to be a non-empty string."
  | badCharacter name => "Names must only contain [_a-zA-Z0-9] but " ++ Text.quoted name ++ " does not."
  | badStart name => "Names must start with [_a-zA-Z] but " ++ Text.quoted name ++ " does not."
  | reservedWord name => "Enum values cannot be named: " ++ name ++ "."

/-- Refuses what is no name. -/
def checkName (name : String) : Except NameError Unit :=
  match name.toList with
  | [] => .error .empty
  | c :: cs =>
    if !cs.all isNamePart then .error (.badCharacter name)
    else if !isNameStart c then .error (.badStart name)
    else .ok ()

/-- Refuses what cannot name a member of an enumeration. -/
def checkMemberName (name : String) : Except NameError Unit := do
  checkName name
  if name = "true" ∨ name = "false" ∨ name = "null" then throw (.reservedWord name)

/-- Checks names in order. -/
def checkAll (check : String → Except NameError Unit) : List String → Except NameError Unit
  | [] => .ok ()
  | n :: ns => do
    check n
    checkAll check ns

/-- The names of the types that describe a schema. -/
def describingNames : List String :=
  ["__Schema", "__Type", "__TypeKind", "__Field", "__InputValue", "__EnumValue", "__Directive",
    "__DirectiveLocation"]

/-- A name of a type that every schema has. -/
def isReservedType (name : String) : Bool :=
  describingNames.contains name || ["String", "Int", "Float", "Boolean", "ID"].contains name

/-- A name that is kept for describing the graph itself. -/
def isHidden (name : String) : Bool := "__".toList.isPrefixOf name.toList

end ThriftGateway.Graph
