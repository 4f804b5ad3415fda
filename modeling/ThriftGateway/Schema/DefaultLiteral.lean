import ThriftGateway.Request.Printer
import ThriftGateway.Schema.Basic

/-!
# Defaults as literals

A default is printed as the literal of what its type would write for it in an answer.
-/

namespace ThriftGateway.Schema

open Graph (CoercionError EnumMember GraphType NamedType)
open Request (Literal)

/-- Why a default cannot be printed. -/
inductive PrintError where
  | coercion (error : CoercionError)
  /-- What the type writes has no literal. -/
  | noLiteral (written : Value)
  deriving Repr

/-- The words for an error. -/
def PrintError.message : PrintError → String
  | coercion e => e.message
  | noLiteral v => "Cannot convert value to AST: " ++ v.inspect ++ "."

/-- The literal of what a scalar has written. -/
def literalOf? : Value → Option Literal
  | .bool b => some (.bool b)
  | .int n => some (.int (Number.decimal n))
  | .float d => some (.float (d.textIn Number.literalLayout))
  | .text s => some (.text s false)
  | _ => none

/-- The literal of a value of a leaf type; none for a value of an input object. -/
def leafLiteral (d : Option Definition) (v : Value) : Except PrintError (Option Literal) :=
  match d with
  | some (.scalar s) =>
    match s.write v with
    | .error e => .error (.coercion e)
    | .ok w =>
      match literalOf? w with
      | some l => .ok (some l)
      | none => .error (.noLiteral w)
  | some (.enumeration name _ members) =>
    match Graph.writeMember name members v with
    | .error e => .error (.coercion e)
    | .ok w => .ok (some (.word w.nameText))
  | _ => .ok none

/-- What a value consists of where a list is expected. -/
def listItems? : Value → Option (List Value)
  | .list items | .tuple items | .set _ items => some items
  | _ => none

/-- The literals of several values, those without one left out. -/
def literalsFor (literal : Value → Except PrintError (Option Literal)) : List Value →
    Except PrintError (List Literal)
  | [] => .ok []
  | v :: vs => do
    let l ← literal v
    let ls ← literalsFor literal vs
    return l.toList ++ ls

/-- The literal of a default of a type. -/
def defaultLiteral (s : TypeSystem) : GraphType → Value → Except PrintError (Option Literal)
  | .nonNull t, v => do return (← defaultLiteral s t v).filter fun
      | .null => false
      | _ => true
  | _, .null => .ok (some .null)
  | .list t, v =>
    match listItems? v with
    | some items => do return some (.list (← literalsFor (defaultLiteral s t) items))
    | none => defaultLiteral s t v
  | .named t, v => leafLiteral (s.definition? t) v

end ThriftGateway.Schema
