import ThriftGateway.Value.Basic

/-!
# Literals

The values that a request can write out, with variables among them.  `Literal.toValue` gives the plain value of a
literal, whatever type is expected at its place.
-/

namespace ThriftGateway.Request

/-- A value as written in a request. -/
inductive Literal where
  | var (name : String)
  | int (digits : String)
  | float (text : String)
  | text (value : String) (block : Bool)
  | bool (b : Bool)
  | null
  /-- A bare word, the name of an enumeration's member. -/
  | word (name : String)
  | list (items : List Literal)
  | object (fields : List (String × Literal))
  deriving Repr, Inhabited

namespace Literal

/-- The name of a literal's kind in messages. -/
def kindName : Literal → String
  | var _ => "variable"
  | int _ => "int_value"
  | float _ => "float_value"
  | text .. => "string_value"
  | bool _ => "boolean_value"
  | null => "null_value"
  | word _ => "enum_value"
  | list _ => "list_value"
  | object _ => "object_value"

/-- The value of a whole number as written; one with too many digits is no number. -/
def intValue (digits : String) : Value :=
  ((Number.readInt? 10 digits).map Value.int).getD (.float .nan)

/-- The value of a decimal number as written. -/
def floatValue (text : String) : Value := .float ((Number.readDouble? text).getD .nan)

mutual
/-- The plain value of a literal.  A variable that has no value stands for the lack of one. -/
def toValue (bindings : List (String × Value)) : Literal → Value
  | var name => (bindings.lookup name).getD .undefined
  | int digits => intValue digits
  | float s => floatValue s
  | text s _ => .text s
  | bool b => .bool b
  | null => .null
  | word name => .text name
  | list items => .list (toValues bindings items)
  | object fields => Value.ofEntries (toEntries bindings fields)

/-- The plain values of several literals. -/
def toValues (bindings : List (String × Value)) : List Literal → List Value
  | [] => []
  | l :: ls => toValue bindings l :: toValues bindings ls

/-- The entries that the fields of an object stand for. -/
def toEntries (bindings : List (String × Value)) : List (String × Literal) → List (Value × Value)
  | [] => []
  | (name, l) :: fs => (.text name, toValue bindings l) :: toEntries bindings fs
end

end Literal

end ThriftGateway.Request
