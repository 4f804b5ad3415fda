import ThriftGateway.Value.Item
import ThriftGateway.Value.Styled

/-!
# Facts

What can be told about a request beside plain values: parts of the request and of the schema, in lists and in tuples
whose parts have names.  A fact has a text, a form in which it is shown inside of others, attributes and items.
-/

namespace ThriftGateway.Execution

open Text (Style StyleFault)

/-- Something that can be told. -/
inductive Fact where
  | value (v : Value)
  | list (items : List Fact)
  | tuple (items : List Fact)
  /-- A tuple of a kind of its own, whose parts have names. -/
  | parts (kind : String) (parts : List (String × Fact))
  /-- Facts by names. -/
  | entries (entries : List (String × Fact))
  /-- A member of an enumeration. -/
  | word (kind name value : String)
  /-- A thing that is only known by its text, the form in which it is shown, and its attributes. -/
  | thing (kind text shown : String) (attributes : List (String × Fact))
  deriving Repr

namespace Fact

/-- A text. -/
def ofText (s : String) : Fact := .value (.text s)

/-- Nothing. -/
def nothing : Fact := .value .null

/-- What is told, or nothing. -/
def ofOption (f : Option Fact) : Fact := f.getD nothing

/-- The name of a fact's kind. -/
def kindName : Fact → String
  | value v => v.kindName
  | list _ => "list"
  | tuple _ => "tuple"
  | parts kind _ | word kind .. | thing kind .. => kind
  | entries _ => "dict"

mutual
/-- The form in which a fact is shown inside of others. -/
def shown : Fact → String
  | value v => v.display
  | list items => "[" ++ Value.commaSeparated (shownAll items) ++ "]"
  | tuple items => Value.tupleText (shownAll items)
  | parts kind ps => kind ++ "(" ++ Value.commaSeparated ((shownNamed ps).map fun p => p.1 ++ "=" ++ p.2) ++ ")"
  | entries es =>
    "\x7b" ++ Value.commaSeparated ((shownNamed es).map fun e => Text.quoted e.1 ++ ": " ++ e.2) ++ "\x7d"
  | word kind name v => "<" ++ kind ++ "." ++ name ++ ": " ++ Text.quoted v ++ ">"
  | thing _ _ form _ => form

/-- The forms of several facts. -/
def shownAll : List Fact → List String
  | [] => []
  | f :: fs => shown f :: shownAll fs

/-- The forms of facts with names. -/
def shownNamed : List (String × Fact) → List (String × String)
  | [] => []
  | (name, f) :: fs => (name, shown f) :: shownNamed fs
end

/-- The text of a fact. -/
def text : Fact → String
  | value v => v.nameText
  | word kind name _ => kind ++ "." ++ name
  | thing _ s .. => s
  | f => f.shown

/-- The text of a fact in a style as written; only values and words have styles other than the empty one. -/
def styled (style : List Char) (f : Fact) : Except StyleFault String :=
  match f with
  | value v => v.styled style
  | word .. => (Value.text f.text).styled style
  | f => if style.isEmpty then .ok f.text else .error (.noStyles f.kindName)

/-- What stands before the name of a kind in full. -/
def homeOf (kind : String) : String :=
  if kind = "Path" then "graphql.pyutils.path."
  else if kind = "VariableValues" then "graphql.execution.values."
  else if kind = "GraphQLSchema" then "graphql.type.schema."
  else if "GraphQL".isPrefixOf kind then "graphql.type.definition."
  else if ["Location", "OperationType"].contains kind || "Node".toList.isSuffixOf kind.toList then
    "graphql.language.ast."
  else ""

/-- A kind of facts as a fact itself. -/
def kindFact (kind : String) : Fact :=
  let text := "<class '" ++ homeOf kind ++ kind ++ "'>"
  .thing "type" text text [("__name__", ofText kind), ("__qualname__", ofText kind)]

/-- The attributes that only facts of a kind have. -/
def ownAttribute? (name : String) : Fact → Option Fact
  | value v => (v.part? name).map value
  | list _ | tuple _ | entries _ => none
  | parts _ ps => if name = "_fields" then some (.tuple (ps.map fun p => ofText p.1)) else ps.lookup name
  | word _ n v => [("name", ofText n), ("value", ofText v)].lookup name
  | thing _ _ _ attributes => attributes.lookup name

/-- The attribute of a name. -/
def attribute? (name : String) (f : Fact) : Option Fact :=
  if name = "__class__" then some (kindFact f.kindName) else f.ownAttribute? name

/-- The item under a key. -/
def item (key : Value) (f : Fact) : Except ItemError Fact :=
  match f with
  | value v => (v.item key).map value
  | list xs => itemAt .list xs key
  | tuple xs => itemAt .tuple xs key
  | parts _ ps => itemAt .tuple (ps.map (·.2)) key
  | entries es =>
    match es.find? fun e => Value.same (.text e.1) key with
    | some e => .ok e.2
    | none => .error (.noKey key)
  | f => .error (.noItems f.kindName)

end Fact

end ThriftGateway.Execution
