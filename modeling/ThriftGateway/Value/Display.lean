import ThriftGateway.Number.Shortest
import ThriftGateway.Text.Quoted
import ThriftGateway.Value.Basic

/-!
# Values in messages

Two texts of a value: `display` writes all of it, and `inspect` leaves out the middle of long texts and lists and
what is nested deeply.  A message can show a value only if all integers in it are short enough to be written
(`isWritable`).
-/

namespace ThriftGateway.Value

/-- Texts separated by commas. -/
def commaSeparated (parts : List String) : String := ", ".intercalate parts

/-- A tuple with the given items; a comma follows a single one. -/
def tupleText (parts : List String) : String :=
  "(" ++ commaSeparated parts ++ (if parts.length = 1 then ",)" else ")")

/-- A set with the given members. -/
def setText (frozen : Bool) (parts : List String) : String :=
  let braces := if parts.isEmpty then "" else "\x7b" ++ commaSeparated parts ++ "\x7d"
  if frozen then "frozenset(" ++ braces ++ ")" else if parts.isEmpty then "set()" else braces

mutual
/-- The whole text of a value. -/
def display : Value → String
  | null => "None"
  | undefined => "Undefined"
  | bool b => if b then "True" else "False"
  | int n => Number.decimal n
  | float d => d.text
  | text s => Text.quoted s
  | list items => "[" ++ commaSeparated (displayAll items) ++ "]"
  | tuple items => tupleText (displayAll items)
  | set frozen items => setText frozen (displayAll items)
  | map entries => "\x7b" ++ commaSeparated (displayEntries entries) ++ "\x7d"
  | thing t _ => t.shown

/-- The whole texts of several values. -/
def displayAll : List Value → List String
  | [] => []
  | v :: vs => display v :: displayAll vs

/-- The whole texts of entries. -/
def displayEntries : List (Value × Value) → List String
  | [] => []
  | (k, v) :: es => (display k ++ ": " ++ display v) :: displayEntries es
end

mutual
/-- Whether no integer in a value has more digits than may be written. -/
def isWritable : Value → Bool
  | int n => Number.isWritable n
  | list items | tuple items | set _ items => areWritable items
  | map entries => areWritableEntries entries
  | _ => true

/-- Whether several values can be written. -/
def areWritable : List Value → Bool
  | [] => true
  | v :: vs => isWritable v && areWritable vs

/-- Whether entries can be written. -/
def areWritableEntries : List (Value × Value) → Bool
  | [] => true
  | (k, v) :: es => isWritable k && isWritable v && areWritableEntries es
end

/-- The name of a value's kind in messages. -/
def kindName : Value → String
  | null => "NoneType"
  | undefined => "UndefinedType"
  | bool _ => "bool"
  | int _ => "int"
  | float _ => "float"
  | text _ => "str"
  | list _ => "list"
  | tuple _ => "tuple"
  | set frozen _ => if frozen then "frozenset" else "set"
  | map _ => "dict"
  | thing t _ => t.kind

/-- A value as the name of an entry: a text is its own name. -/
def nameText : Value → String
  | text s => s
  | thing t _ => t.text
  | v => v.display

/-- The longest text that `inspect` writes whole. -/
def inspectLength : Nat := 240

/-- The most items that `inspect` writes. -/
def inspectItems : Nat := 10

/-- How deep `inspect` looks into collections. -/
def inspectDepth : Nat := 2

/-- A text with its middle left out if it is long. -/
def shortenText (s : String) : String :=
  let cs := s.toList
  if cs.length ≤ inspectLength then s
  else
    let i := (inspectLength - 3) / 2
    let j := inspectLength - 3 - i
    String.ofList (cs.take i) ++ "..." ++ String.ofList (cs.drop (cs.length - j))

/-- A list with its middle left out if it is long. -/
def shortenList (parts : List String) : List String :=
  if parts.length ≤ inspectItems then parts
  else
    let i := inspectItems / 2
    parts.take i ++ ["..."] ++ parts.drop (parts.length - (i - 1))

mutual
/-- The text of a value at a given depth. -/
def inspectAt : Nat → Value → String
  | depth, list items =>
    if items.isEmpty then "[]"
    else if depth < inspectDepth then "[" ++ commaSeparated (shortenList (inspectAll (depth + 1) items)) ++ "]"
    else "[...]"
  | depth, tuple items =>
    if items.isEmpty then "()"
    else if depth < inspectDepth then tupleText (shortenList (inspectAll (depth + 1) items))
    else "(...)"
  | depth, set frozen items =>
    if items.isEmpty then setText frozen []
    else if depth < inspectDepth then setText frozen (shortenList (inspectAll (depth + 1) items))
    else if frozen then "frozenset(...)" else "set(...)"
  | depth, map entries =>
    if entries.isEmpty then "\x7b\x7d"
    else if depth < inspectDepth then
      "\x7b" ++ commaSeparated (shortenList (inspectEntries (depth + 1) entries)) ++ "\x7d"
    else "\x7b...\x7d"
  | _, text s => shortenText (Text.quoted s)
  | _, int n => shortenText (Number.decimal n)
  | _, thing t _ => t.inspected
  | _, v => v.display

/-- The texts of several values at a given depth. -/
def inspectAll : Nat → List Value → List String
  | _, [] => []
  | depth, v :: vs => inspectAt depth v :: inspectAll depth vs

/-- The texts of entries at a given depth. -/
def inspectEntries : Nat → List (Value × Value) → List String
  | _, [] => []
  | depth, (k, v) :: es => (inspectAt depth k ++ ": " ++ inspectAt depth v) :: inspectEntries depth es
end

/-- The text of a value with long and deep parts left out. -/
def inspect (v : Value) : String := inspectAt 0 v

end ThriftGateway.Value
