import ThriftGateway.Execution.Description
import ThriftGateway.Service.Callable

/-!
# Members of values

What a value holds under the name of a field.  A map holds its entries, and an object of a client's own its attributes;
what can be called among them is called with the description of the field that is asked for.  Every other value has the
members of its kind: a number its parts, and texts, numbers, lists and sets their functions.  These are called with the
description too, a tuple that begins with the field's name and a list.  Few of them take it: a text is filled with it as
a template, or has its lowest characters replaced by its parts.
-/

namespace ThriftGateway.Execution

/-- Why a member of a value gives nothing. -/
inductive MemberError where
  /-- The function does not take what it is called with. -/
  | wrongArgument (message : String)
  /-- The function looks for what it is called with, in vain. -/
  | notContained (message : String)
  /-- The text is a template that cannot be filled. -/
  | unfilled (error : FillingError)
  /-- A character is to be replaced by an integer that is none. -/
  | noCharacter
  /-- A function of a client's own has failed. -/
  | raised (error : Service.Raised)
  deriving Repr

/-- The words for an error. -/
def MemberError.message : MemberError → String
  | wrongArgument message | notContained message => message
  | unfilled e => e.message
  | noCharacter => "character mapping must be in range(0x110000)"
  | raised e => e.message

/-- What a member gives. -/
abbrev Member := Except MemberError Value

/-- What the callable objects in results give; they are known by their numbers. -/
abbrev Methods := Nat → Inquiry → Except Service.Raised Value

/-- A function that takes nothing. -/
def takesNothing (owner name : String) : Member :=
  .error (.wrongArgument (owner ++ "." ++ name ++ "() takes no arguments (1 given)"))

/-- A function that takes an index; `kind` is what it gets. -/
def takesIndex (kind : String) : Member :=
  .error (.wrongArgument ("'" ++ kind ++ "' object cannot be interpreted as an integer"))

/-- A function that takes a text. -/
def takesText (lead : String) : Member :=
  .error (.wrongArgument (lead ++ "must be str, not " ++ descriptionKind))

/-- A function that would have to find the list in the field's description in a set. -/
def takesMembers : Member := .error (.wrongArgument "unhashable type: 'list'")

/-! ### Numbers -/

/-- The functions of an integer; truth values are integers too. -/
def integerFunction? (kind name : String) : Option Member :=
  if ["as_integer_ratio", "bit_count", "bit_length", "conjugate"].contains name then some (takesNothing kind name)
  else if name = "to_bytes" then some (takesIndex descriptionKind)
  else if name = "from_bytes" then some (takesIndex "str")
  else none

/-- The functions of a floating point number. -/
def doubleFunction? (name : String) : Option Member :=
  if ["as_integer_ratio", "conjugate", "hex", "is_integer"].contains name then some (takesNothing "float" name)
  else if name = "fromhex" then some (.error (.wrongArgument "bad argument type for built-in operation"))
  else none

/-! ### Texts -/

/-- The functions of texts that take nothing. -/
def plainTextFunctions : List String :=
  ["capitalize", "casefold", "isalnum", "isalpha", "isascii", "isdecimal", "isdigit", "isidentifier", "islower",
    "isnumeric", "isprintable", "isspace", "istitle", "isupper", "lower", "swapcase", "title", "upper"]

/-- Looks for the field's name at an end of a text, and then for the list behind it. -/
def textAtEnd (name : String) (found : Bool) : Member :=
  if found then .ok (.bool true)
  else .error (.wrongArgument ("tuple for " ++ name ++ " must only contain str, not list"))

/-- What replaces a character: a text, the character with a number, or nothing at all. -/
def replacement : Fact → Except MemberError (List Char)
  | .value .null => .ok []
  | .value (.text s) => .ok s.toList
  | .value (.bool b) => .ok [Char.ofNat (if b then 1 else 0)]
  | .value (.int n) => if 0 ≤ n ∧ n < 0x110000 then .ok [Char.ofNat n.toNat] else .error .noCharacter
  | _ => .error (.wrongArgument "character mapping must return integer, None or str")

/-- Replaces the characters whose numbers are places in a list of facts. -/
def replaceLowest (facts : List Fact) : List Char → Except MemberError (List Char)
  | [] => .ok []
  | c :: cs => do
    let first ← match facts[c.toNat]? with
      | some f => replacement f
      | none => pure [c]
    return first ++ (← replaceLowest facts cs)

/-- The members of a text. -/
def textMember? (about : Inquiry) (s name : String) : Option Member :=
  let filled (supply : Supply) : Option Member := some ((fill supply s).map .text |>.mapError .unfilled)
  let wrong (message : String) : Option Member := some (.error (.wrongArgument message))
  if plainTextFunctions.contains name then some (takesNothing "str" name)
  else if ["center", "expandtabs", "ljust", "rjust", "splitlines", "zfill"].contains name then
    some (takesIndex descriptionKind)
  else if ["count", "find", "index", "partition", "rfind", "rindex", "rpartition"].contains name then
    some (takesText "")
  else if name = "encode" then some (takesText "encode() argument 'encoding' ")
  else if ["removeprefix", "removesuffix"].contains name then some (takesText (name ++ "() argument "))
  else if ["rsplit", "split"].contains name then wrong ("must be str or None, not " ++ descriptionKind)
  else if ["lstrip", "rstrip", "strip"].contains name then wrong (name ++ " arg must be None or str")
  else if name = "startswith" then some (textAtEnd name (name.toList.isPrefixOf s.toList))
  else if name = "endswith" then some (textAtEnd name (name.toList.isSuffixOf s.toList))
  else if name = "join" then wrong "sequence item 1: expected str instance, list found"
  else if name = "maketrans" then wrong "if you give only one argument to maketrans it must be a dict"
  else if name = "replace" then wrong "replace expected at least 2 arguments, got 1"
  else if name = "format" then filled (.positions [about.fact])
  else if name = "format_map" then filled (.itemsOf about.fact)
  else if name = "translate" then
    some ((replaceLowest (about.describe.map (·.2)) s.toList).map fun cs => .text (String.ofList cs))
  else none

/-! ### Collections -/

/-- The members of a list. -/
def listMember? (about : Inquiry) (name : String) : Option Member :=
  let wrong (message : String) : Option Member := some (.error (.wrongArgument message))
  if name = "count" then some (.ok (.int 0))
  else if ["append", "extend"].contains name then some (.ok .null)
  else if ["clear", "copy", "reverse"].contains name then some (takesNothing "list" name)
  else if name = "pop" then some (takesIndex descriptionKind)
  else if name = "insert" then wrong "insert expected 2 arguments, got 1"
  else if name = "sort" then wrong "sort() takes no positional arguments"
  else if name = "index" then some (.error (.notContained (about.fact.shown ++ " is not in list")))
  else if name = "remove" then some (.error (.notContained "list.remove(x): x not in list"))
  else none

/-- The members of a tuple. -/
def tupleMember? (name : String) : Option Member :=
  if name = "count" then some (.ok (.int 0))
  else if name = "index" then some (.error (.notContained "tuple.index(x): x not in tuple"))
  else none

/-- The functions of all sets that look at members one by one. -/
def setFunctions : List String :=
  ["difference", "intersection", "issubset", "symmetric_difference", "union"]

/-- The further ones of sets that can be changed. -/
def changingSetFunctions : List String :=
  ["add", "difference_update", "discard", "intersection_update", "remove", "symmetric_difference_update", "update"]

/-- The members of a set. -/
def setMember? (frozen : Bool) (items : List Value) (name : String) : Option Member :=
  let known := items.any (Value.same (.text name))
  if setFunctions.contains name then some takesMembers
  else if name = "isdisjoint" then some (if known then .ok (.bool false) else takesMembers)
  else if name = "issuperset" then some (if known then takesMembers else .ok (.bool false))
  else if name = "copy" then some (takesNothing (if frozen then "frozenset" else "set") name)
  else if frozen then none
  else if changingSetFunctions.contains name then some takesMembers
  else if ["clear", "pop"].contains name then some (takesNothing "set" name)
  else none

/-- What a member that has been found comes to: what can be called is called with the description of the field. -/
def Methods.called (methods : Methods) (about : Inquiry) : Value → Member
  | .thing t attributes => if t.callable then (methods t.id about).mapError .raised else .ok (.thing t attributes)
  | v => .ok v

/-- What a value holds under the name of the field that is asked for, `null` if there is nothing. -/
def memberOf (methods : Methods) (about : Inquiry) (v : Value) : Member :=
  let name := about.field.name
  let part : Option Member := (v.part? name).map .ok
  let found : Option Member := match v with
    | .map entries => (Value.lookup? entries (.text name)).map (methods.called about)
    | .thing _ attributes => (attributes.lookup name).map (methods.called about)
    | .bool _ | .int _ => part.or (integerFunction? v.kindName name)
    | .float _ => part.or (doubleFunction? name)
    | .text s => textMember? about s name
    | .list _ => listMember? about name
    | .tuple _ => tupleMember? name
    | .set frozen items => setMember? frozen items name
    | .null | .undefined => none
  found.getD (.ok .null)

end ThriftGateway.Execution
