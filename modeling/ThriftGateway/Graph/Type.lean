import ThriftGateway.Graph.Scalar
import ThriftGateway.Idl.Document
import ThriftGateway.Source.Path

/-!
# Types of the graph

A type is a scalar or a node of the graph inside lists and marks that forbid `null`.  Nodes are numbered by the
session that makes them.
-/

namespace ThriftGateway.Graph

/-- Whether a struct is seen as an argument or as a result. -/
inductive Direction where
  | input
  | output
  deriving DecidableEq, Repr

/-- The scalars. -/
inductive Scalar where
  | int
  | float
  | string
  | boolean
  | wide (scalar : WideScalar)
  deriving DecidableEq, Repr

namespace Scalar

/-- The name of a scalar. -/
def name : Scalar → String
  | int => "Int"
  | float => "Float"
  | string => "String"
  | boolean => "Boolean"
  | wide s => s.name

/-- The scalar of a base type. -/
def ofBase? : String → Option Scalar
  | "byte" => some int
  | "i8" => some int
  | "i16" => some int
  | "i32" => some int
  | "i64" => some (wide .int64)
  | "double" => some float
  | "string" => some string
  | "binary" => some string
  | "bool" => some boolean
  | _ => none

end Scalar

/-- What is inside all lists of a type: a scalar or a node. -/
inductive NamedType where
  | scalar (s : Scalar)
  | node (id : Nat)
  deriving DecidableEq, Repr

/-- A type. -/
inductive GraphType where
  | named (t : NamedType)
  | list (element : GraphType)
  | nonNull (inner : GraphType)
  deriving DecidableEq, Repr

namespace GraphType

/-- What is inside all lists. -/
def innermost : GraphType → NamedType
  | named t => t
  | list element => element.innermost
  | nonNull inner => inner.innermost

/-- A list, whether or not it may be `null`. -/
def isList : GraphType → Bool
  | list _ => true
  | nonNull (list _) => true
  | _ => false

/-- A type that forbids `null`. -/
def isNonNull : GraphType → Bool
  | nonNull _ => true
  | _ => false

/-- The written form, given the names of what is inside. -/
def written (nameOf : NamedType → String) : GraphType → String
  | named t => nameOf t
  | list element => "[" ++ element.written nameOf ++ "]"
  | nonNull inner => inner.written nameOf ++ "!"

end GraphType

/-- An argument, or a field of an input object. -/
structure InputField where
  name : String
  type : GraphType
  default : Option Value
  description : Option String
  deriving Repr

/-- A field of an object. -/
structure OutputField where
  name : String
  type : GraphType
  arguments : List InputField
  description : Option String
  deriving Repr

/-- A member of an enumeration with the value that it stands for. -/
structure EnumMember where
  name : String
  value : Int
  description : Option String
  deriving DecidableEq, Repr

/-- Replaces the item with the key of `x`, or puts `x` behind the others: a repeated key keeps its first place
and takes the last item. -/
def upsert {α : Type} (key : α → String) (x : α) : List α → List α
  | [] => [x]
  | y :: ys => if key y = key x then x :: ys else y :: upsert key x ys

/-- The items with repeated keys brought together. -/
def collect {α : Type} (key : α → String) (xs : List α) : List α := xs.foldl (fun ys x => upsert key x ys) []

/-- What a node is. -/
inductive Node where
  /-- A struct seen as an argument. -/
  | input (name : String) (file : Source.Path) (struct : Idl.Struct)
  /-- A struct seen as a result. -/
  | output (name : String) (file : Source.Path) (struct : Idl.Struct)
  | enumeration (name : String) (members : List EnumMember) (description : Option String)
  /-- A node that a caller has put there. -/
  | foreign
  deriving Repr

/-- The name of a node; foreign nodes have none. -/
def Node.name : Node → String
  | input name .. | output name .. | enumeration name .. => name
  | foreign => ""

end ThriftGateway.Graph
