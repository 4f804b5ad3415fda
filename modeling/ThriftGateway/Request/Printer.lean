import ThriftGateway.Request.Literal
import ThriftGateway.Request.TextLiteral

/-!
# Printing literals

The written form of a literal: items and fields after one another, separated by a comma and a space, or each on a
line of its own where the line would be longer than `maxLineLength`.  Lines are indented `maxIndents` times at most;
inside of that, items that need lines of their own are only separated by spaces.
-/

namespace ThriftGateway.Request

/-- A text with indentation behind every line end. -/
def indentLines (indent : String) (s : String) : String :=
  String.ofList (s.toList.flatMap fun c => if c = '\n' then '\n' :: indent.toList else [c])

namespace Literal

/-- The most characters of a list or an object on one line. -/
def maxLineLength : Nat := 80

/-- How many lists and objects around each other may be written in lines of their own. -/
def maxIndents : Nat := 100

/-- Written parts between an opening and a closing mark, inside of `depth` others: on one line with `pad` at both
ends, if that is short enough, or else each on a line of its own. -/
def enclose (depth : Nat) (opening closing pad : String) (parts : List String) : String :=
  let line := opening ++ pad ++ ", ".intercalate parts ++ pad ++ closing
  if line.length ≤ maxLineLength then line
  else if depth < maxIndents then
    opening ++ indentLines "  " ("\n" ++ "\n".intercalate parts) ++ "\n" ++ closing
  else opening ++ " " ++ " ".intercalate parts ++ " " ++ closing

mutual
/-- The written form of a literal inside of `depth` others. -/
def printAt (depth : Nat) : Literal → String
  | var name => "$" ++ name
  | int digits => digits
  | float s => s
  | text s block => textLiteral s block
  | bool b => if b then "true" else "false"
  | null => "null"
  | word name => name
  | list items => enclose depth "[" "]" "" (printAll (depth + 1) items)
  | object fields => enclose depth "\x7b" "\x7d" " " (printFields (depth + 1) fields)

/-- The written forms of several literals. -/
def printAll (depth : Nat) : List Literal → List String
  | [] => []
  | l :: ls => printAt depth l :: printAll depth ls

/-- The written forms of fields. -/
def printFields (depth : Nat) : List (String × Literal) → List String
  | [] => []
  | (name, l) :: fs => (name ++ ": " ++ printAt depth l) :: printFields depth fs
end

/-- The written form of a literal. -/
def print (l : Literal) : String := printAt 0 l

mutual
/-- A literal for a place that knows no variables: those in lists become `null`, and fields that are variables are
left out. -/
def withoutVariables : Literal → Literal
  | var _ => null
  | list items => list (itemsWithoutVariables items)
  | object fields => object (fieldsWithoutVariables fields)
  | l => l

/-- Items without variables. -/
def itemsWithoutVariables : List Literal → List Literal
  | [] => []
  | l :: ls => withoutVariables l :: itemsWithoutVariables ls

/-- Fields without variables. -/
def fieldsWithoutVariables : List (String × Literal) → List (String × Literal)
  | [] => []
  | (_, var _) :: fs => fieldsWithoutVariables fs
  | (name, l) :: fs => (name, withoutVariables l) :: fieldsWithoutVariables fs
end

end Literal

end ThriftGateway.Request
