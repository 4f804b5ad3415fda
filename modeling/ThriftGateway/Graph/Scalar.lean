import ThriftGateway.Request.Literal
import ThriftGateway.Value.Display

/-!
# Scalars with large ranges

`Int64` is written as a decimal text, so that no client loses digits, and is read from a number or such a text.
`Map` and `Set` are written as plain objects and lists: `plain` turns the keys of maps into texts and every kind
of collection into a list, at all depths.
-/

namespace ThriftGateway.Graph

open Request (Literal)

/-- The scalars beyond the usual ones. -/
inductive WideScalar where
  | int64
  | map
  | set
  deriving DecidableEq, Repr

/-- The name of a scalar. -/
def WideScalar.name : WideScalar → String
  | int64 => "Int64"
  | map => "Map"
  | set => "Set"

/-- What clients are told about a scalar. -/
def WideScalar.description : WideScalar → String
  | int64 => "Use string or number"
  | map => "Use plain object"
  | set => "Use Array"

/-- Why a scalar refuses a value or a literal. -/
inductive ScalarError where
  | truthValue (v : Value)
  | notInteger (s : String)
  | outOfRange (v : Value)
  | wrongKind (scalar : WideScalar) (v : Value)
  | wrongLiteral (kind : String)
  /-- The text of a key would need more digits than a text may have. -/
  | keyTooLong
  deriving Repr

/-- The words for an error. -/
def ScalarError.message : ScalarError → String
  | truthValue v => "Int64 cannot represent a boolean: " ++ v.display
  | notInteger s => "Int64 cannot represent non-integer string: " ++ Text.quoted s
  | outOfRange v => "Int64 value out of range: " ++ v.display
  | wrongKind scalar v => scalar.name ++ " cannot represent value: " ++ v.display
  | wrongLiteral kind => "Int64 cannot represent literal of kind " ++ kind
  | keyTooLong => Number.NumeralError.tooLongToWrite.message

/-- Whether a message can show what the error is about.  What would be too long a text cannot be shown either. -/
def ScalarError.isWritable : ScalarError → Bool
  | truthValue v | outOfRange v | wrongKind _ v => v.isWritable
  | notInteger _ | wrongLiteral _ => true
  | keyTooLong => false

/-! ### Integers of 64 bits -/

/-- The least integer of 64 bits. -/
def int64Min : Int := -9223372036854775808

/-- The greatest integer of 64 bits. -/
def int64Max : Int := 9223372036854775807

/-- An integer in the range of 64 bits. -/
def inInt64Range (n : Int) : Bool := int64Min ≤ n && n ≤ int64Max

/-- The integer that a value stands for, of any size: a number, or a text of one between white space. -/
def integerOf : Value → Except ScalarError Int
  | .bool b => .error (.truthValue (.bool b))
  | .int n => .ok n
  | .text s =>
    match Number.readInt? 10 (String.ofList (Text.trim s.toList)) with
    | some n => .ok n
    | none => .error (.notInteger s)
  | v => .error (.wrongKind .int64 v)

/-- The integer of 64 bits that a value stands for. -/
def int64Of (v : Value) : Except ScalarError Int := do
  let n ← integerOf v
  if inInt64Range n then return n else throw (.outOfRange v)

/-- The integer of 64 bits that a literal stands for: a number or a text. -/
def int64OfLiteral : Literal → Except ScalarError Int
  | .int digits => int64Of (.text digits)
  | .text s _ => int64Of (.text s)
  | l => .error (.wrongLiteral l.kindName)

/-! ### Maps and sets -/

mutual
/-- The plain form of a value: maps with text keys, lists, and what is no collection.  There is none if the text of a
key, at any depth, would be too long. -/
def plain : Value → Except ScalarError Value
  | .map entries => do return Value.ofEntries (← plainEntries entries)
  | .list items => do return .list (← plainItems items)
  | .tuple items => do return .list (← plainItems items)
  | .set _ items => do return .list (← plainItems items)
  | v => .ok v

/-- The plain forms of several values. -/
def plainItems : List Value → Except ScalarError (List Value)
  | [] => .ok []
  | v :: vs => do return (← plain v) :: (← plainItems vs)

/-- Entries with texts as keys and plain values. -/
def plainEntries : List (Value × Value) → Except ScalarError (List (Value × Value))
  | [] => .ok []
  | (k, v) :: es => do
    if !k.isWritable then throw .keyTooLong
    return (.text k.nameText, ← plain v) :: (← plainEntries es)
end

/-- A map. -/
def isMap : Value → Bool
  | .map _ => true
  | _ => false

/-- A list, a tuple or a set. -/
def isCollection : Value → Bool
  | .list _ | .tuple _ | .set .. => true
  | _ => false

/-! ### The three directions of a scalar -/

namespace WideScalar

/-- How a value is written in an answer. -/
def output (scalar : WideScalar) (v : Value) : Except ScalarError Value :=
  match scalar with
  | int64 => do return .text (Number.decimal (← int64Of v))
  | map => if isMap v then plain v else .error (.wrongKind map v)
  | set => if isCollection v then plain v else .error (.wrongKind set v)

/-- How a given value is read. -/
def input (scalar : WideScalar) (v : Value) : Except ScalarError Value :=
  match scalar, v with
  | int64, v => do return .int (← int64Of v)
  | map, .map entries => .ok (.map entries)
  | set, .list items => .ok (.list items)
  | set, .tuple items => .ok (.list items)
  | scalar, v => .error (.wrongKind scalar v)

/-- How a literal is read. -/
def inputLiteral (scalar : WideScalar) (l : Literal) (bindings : List (String × Value)) :
    Except ScalarError Value :=
  match scalar with
  | int64 => do return .int (← int64OfLiteral l)
  | scalar => scalar.input (l.toValue bindings)

end WideScalar

end ThriftGateway.Graph
