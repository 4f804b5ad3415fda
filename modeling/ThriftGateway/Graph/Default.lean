import ThriftGateway.Graph.Type

/-!
# Defaults

The constant that a field or an argument is initialized with becomes its default if it is a literal, a list where
a list is expected, and made of values that fit the innermost scalar.
-/

namespace ThriftGateway.Graph

open Idl (ConstValue)
open Number (NumeralError)

/-- The integer of a constant. -/
def integerOfLiteral (l : Idl.IntLiteral) : Except NumeralError Int := Number.readInt (if l.isHex then 16 else 10) l.raw

mutual
/-- The value of a constant, none for one that is no literal. -/
def constantValue : ConstValue → Except NumeralError (Option Value)
  | .int l => do return some (.int (← integerOfLiteral l))
  | .double _ raw => do return some (.float (← Number.readDouble raw))
  | .text _ s => .ok (some (.text s))
  | .bool _ b => .ok (some (.bool b))
  | .list _ elements => do return (← constantValues elements).map .list
  | .named .. | .map .. | .other _ => .ok none

/-- The values of several constants, none if one is no literal. -/
def constantValues : List ConstValue → Except NumeralError (Option (List Value))
  | [] => .ok (some [])
  | c :: cs => do
    let v ← constantValue c
    let vs ← constantValues cs
    return v.bind fun v => vs.map (v :: ·)
end

/-- The least `Int`. -/
def intMin : Int := -2147483648

/-- The greatest `Int`. -/
def intMax : Int := 2147483647

/-- An integer in the range of `Int`. -/
def inIntRange (n : Int) : Bool := intMin ≤ n && n ≤ intMax

/-- Whether a value that is no list fits a type that is no list. -/
def fitsNamed : NamedType → Value → Bool
  | .scalar .boolean, .bool _ => true
  | .scalar .int, .int n => inIntRange n
  | .scalar (.wide .int64), .int _ => true
  | .scalar .float, .int _ => true
  | .scalar .float, .float _ => true
  | .scalar .string, .text _ => true
  | _, _ => false

mutual
/-- Whether all values that a list consists of, at any depth, fit a type that is no list. -/
def fits (t : NamedType) : Value → Bool
  | .list items => fitsAll t items
  | v => fitsNamed t v

/-- Whether several values fit. -/
def fitsAll (t : NamedType) : List Value → Bool
  | [] => true
  | v :: vs => fits t v && fitsAll t vs
end

/-- A list. -/
def isListValue : Value → Bool
  | .list _ => true
  | _ => false

/-- The default that a constant gives at a place of the type, if it gives one. -/
def defaultFor (constant : Option ConstValue) (type : GraphType) : Except NumeralError (Option Value) :=
  match constant with
  | none => .ok none
  | some c => do
    let v ← constantValue c
    return v.filter fun v => isListValue v == type.isList && fits type.innermost v

end ThriftGateway.Graph
