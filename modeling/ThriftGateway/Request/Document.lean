import ThriftGateway.Request.Literal

/-!
# Requests

A request consists of operations, each of which selects fields from the root and takes variables, and of fragments,
which are selections with a name of their own.  All parts say where in the request they stand.  Definitions of types
and of schemas, and extensions of them, are no part of a request here: they cannot be run.  Descriptions of operations
and fragments are read and dropped.
-/

namespace ThriftGateway.Request

/-- Where a part of a request begins and where it has ended, in characters. -/
structure Extent where
  start : Nat
  stop : Nat
  deriving DecidableEq, Repr

/-- A name as it stands in a request. -/
structure WrittenName where
  extent : Extent
  text : String
  deriving DecidableEq, Repr

/-- A type as written in a request. -/
inductive TypeNotation where
  | named (name : String)
  | list (element : TypeNotation)
  | nonNull (inner : TypeNotation)
  deriving DecidableEq, Repr

namespace TypeNotation

/-- The name inside all lists. -/
def innermost : TypeNotation → String
  | named name => name
  | list element => element.innermost
  | nonNull inner => inner.innermost

/-- The written form. -/
def text : TypeNotation → String
  | named name => name
  | list element => "[" ++ element.text ++ "]"
  | nonNull inner => inner.text ++ "!"

end TypeNotation

/-- An argument of a field or of a directive. -/
structure Argument where
  extent : Extent
  name : String
  value : Literal
  deriving Repr

/-- A directive behind a part of a request. -/
structure Directive where
  extent : Extent
  name : WrittenName
  arguments : List Argument
  deriving Repr

/-- A variable of an operation. -/
structure Variable where
  extent : Extent
  name : String
  type : TypeNotation
  default : Option Literal
  directives : List Directive
  deriving Repr

/-- What can be selected. -/
inductive Selection where
  /-- A field, the braces that follow it, and what they select from its value. -/
  | field (extent : Extent) (alias? : Option WrittenName) (name : WrittenName) (arguments : List Argument)
      (directives : List Directive) (braces : Option Extent) (selections : List Selection)
  /-- What a fragment selects. -/
  | spread (extent : Extent) (name : WrittenName) (directives : List Directive)
  /-- What the braces select, from objects of a type if one is named. -/
  | inline (extent : Extent) (condition : Option WrittenName) (directives : List Directive) (braces : Extent)
      (selections : List Selection)
  deriving Repr

/-- A selected field. -/
structure SelectedField where
  extent : Extent
  /-- The name that is asked for instead, as it stands in the request. -/
  alias? : Option WrittenName
  /-- The name of the field as it stands in the request. -/
  writtenName : WrittenName
  arguments : List Argument
  directives : List Directive
  /-- The braces that follow the field; they may be empty. -/
  braces : Option Extent
  /-- What is selected from the value of the field. -/
  selections : List Selection
  deriving Repr

namespace SelectedField

/-- The name of the field. -/
def name (x : SelectedField) : String := x.writtenName.text

/-- The name that the answer gives the value. -/
def key (x : SelectedField) : String := (x.alias?.getD x.writtenName).text

/-- The field where it is selected. -/
def toSelection (x : SelectedField) : Selection :=
  .field x.extent x.alias? x.writtenName x.arguments x.directives x.braces x.selections

end SelectedField

/-- The kinds of operations. -/
inductive OperationKind where
  | query
  | mutation
  | subscription
  deriving DecidableEq, Repr

/-- The word for a kind of operations. -/
def OperationKind.word : OperationKind → String
  | query => "query"
  | mutation => "mutation"
  | subscription => "subscription"

/-- An operation. -/
structure Operation where
  extent : Extent
  kind : OperationKind
  name : Option WrittenName
  parameters : List Variable
  directives : List Directive
  braces : Extent
  selections : List Selection
  deriving Repr

/-- A fragment: what it selects from objects of a type. -/
structure Fragment where
  extent : Extent
  writtenName : WrittenName
  condition : WrittenName
  directives : List Directive
  braces : Extent
  selections : List Selection
  deriving Repr

/-- The name of a fragment. -/
def Fragment.name (f : Fragment) : String := f.writtenName.text

/-- What a request consists of. -/
inductive DocumentPart where
  | operation (op : Operation)
  | fragment (f : Fragment)
  deriving Repr

/-- A request. -/
structure Document where
  /-- How many characters the request has: no selections are nested deeper. -/
  size : Nat
  parts : List DocumentPart
  deriving Repr

namespace Document

variable (d : Document)

/-- The operations of a request. -/
def operations : List Operation := d.parts.filterMap fun
  | .operation op => some op
  | .fragment _ => none

/-- The fragments of a request. -/
def fragments : List Fragment := d.parts.filterMap fun
  | .operation _ => none
  | .fragment f => some f

end Document

/-- The fragment of a name. -/
def fragment? (fragments : List Fragment) (name : String) : Option Fragment := fragments.find? (·.name = name)

end ThriftGateway.Request
