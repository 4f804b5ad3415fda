import ThriftGateway.Graph.Default
import ThriftGateway.Request.Suggestion

/-!
# Writing values of leaf types

How scalars and enumerations write a value in an answer, and which values they refuse.
-/

namespace ThriftGateway.Graph

open Number (Double)

/-- Why a leaf type refuses a value or a literal.  Most causes keep how the message shows what was given. -/
inductive CoercionError where
  | scalar (error : ScalarError)
  /-- The numeral of a literal cannot be read. -/
  | numeral (error : Number.NumeralError)
  /-- No names can be suggested for a member that there is not. -/
  | suggestion (error : Request.TableTooNarrow)
  | nonInteger (shown : String)
  | beyondInt (shown : String)
  | nonNumeric (shown : String)
  | unwritable (shown : String)
  | nonText (shown : String)
  | nonBoolean (shown : String)
  | noMember (enumeration shown : String)
  /-- A member was to be named by a text; `hint` suggests names. -/
  | memberNotText (enumeration shown hint : String)
  | memberNotWord (enumeration shown hint : String)
  | unknownMember (enumeration name hint : String)
  deriving Repr

/-- An error about a value, if a message can show the value. -/
def CoercionError.about (e : CoercionError) (v : Value) : CoercionError :=
  if v.isWritable then e else .numeral .tooLongToWrite

/-- The refusal of a scalar, if a message can show what it is about. -/
def CoercionError.ofScalar (e : ScalarError) : CoercionError :=
  if e.isWritable then .scalar e else .numeral .tooLongToWrite

/-- Whether an error comes from within: messages then say which type has met it. -/
def CoercionError.isInner : CoercionError → Bool
  | scalar _ | numeral _ | suggestion _ => true
  | _ => false

/-- The words for an error. -/
def CoercionError.message : CoercionError → String
  | scalar e => e.message
  | numeral e => e.message
  | suggestion e => e.message
  | nonInteger s => "Int cannot represent non-integer value: " ++ s
  | beyondInt s => "Int cannot represent non 32-bit signed integer value: " ++ s
  | nonNumeric s => "Float cannot represent non numeric value: " ++ s
  | unwritable s => "String cannot represent value: " ++ s
  | nonText s => "String cannot represent a non string value: " ++ s
  | nonBoolean s => "Boolean cannot represent a non boolean value: " ++ s
  | noMember e s => "Enum '" ++ e ++ "' cannot represent value: " ++ s
  | memberNotText e s hint => "Enum '" ++ e ++ "' cannot represent non-string value: " ++ s ++ "." ++ hint
  | memberNotWord e s hint => "Enum '" ++ e ++ "' cannot represent non-enum value: " ++ s ++ "." ++ hint
  | unknownMember e s hint => "Value '" ++ s ++ "' does not exist in '" ++ e ++ "' enum." ++ hint

/-- An integer as an `Int`; `v` is what the message shows. -/
def asInt (n : Int) (v : Value) : Except CoercionError Value :=
  if inIntRange n then .ok (.int n) else .error (.beyondInt v.inspect)

/-- Writes an `Int`: truth values, whole numbers and texts of integers. -/
def writeInt (v : Value) : Except CoercionError Value :=
  match v with
  | .bool b => .ok (.int (if b then 1 else 0))
  | .int n => asInt n v
  | .float d =>
    match d.integer? with
    | some n => asInt n v
    | none => .error (.nonInteger v.inspect)
  | .text s =>
    match Number.readInt? 10 s with
    | some n => asInt n v
    | none => .error (.nonInteger v.inspect)
  | v => .error (.nonInteger v.inspect)

/-- An integer as a floating point number, if it is one exactly. -/
def exactFloat (n : Int) : Except CoercionError Value :=
  let d := Double.ofInt n
  let shown := (Value.int n).inspect
  if !d.isFinite then .error ((CoercionError.nonNumeric (shown ++ " (value is too large)")).about (.int n))
  else if d.integer? ≠ some n then .error (.nonNumeric (shown ++ " (value would lose precision)"))
  else .ok (.float d)

/-- Writes a `Float`: truth values, finite numbers and texts of them. -/
def writeFloat (v : Value) : Except CoercionError Value :=
  match v with
  | .bool b => .ok (.int (if b then 1 else 0))
  | .int n => exactFloat n
  | .float d => if d.isFinite then .ok v else .error (.nonNumeric v.inspect)
  | .text s =>
    match Number.readDouble? s with
    | some d => if d.isFinite then .ok (.float d) else .error (.nonNumeric v.inspect)
    | none => .error (.nonNumeric v.inspect)
  | v => .error (.nonNumeric v.inspect)

/-- Writes a `String`: texts, truth values, finite numbers, and the texts of a client's own kinds of objects. -/
def writeString (v : Value) : Except CoercionError Value :=
  match v with
  | .text _ => .ok v
  | .bool b => .ok (.text (if b then "true" else "false"))
  | .int n => .ok (.text (Number.decimal n))
  | .float d => if d.isFinite then .ok (.text d.text) else .error (.unwritable v.inspect)
  | .thing t _ => if t.builtIn then .error (.unwritable v.inspect) else .ok (.text t.text)
  | v => .error (.unwritable v.inspect)

/-- Writes a `Boolean`: truth values, and finite numbers by whether they are not zero. -/
def writeBoolean (v : Value) : Except CoercionError Value :=
  match v with
  | .bool _ => .ok v
  | .int n => .ok (.bool (n ≠ 0))
  | .float d => if d.isFinite then .ok (.bool !d.isZero) else .error (.nonBoolean v.inspect)
  | v => .error (.nonBoolean v.inspect)

/-- Writes a scalar. -/
def Scalar.write (s : Scalar) (v : Value) : Except CoercionError Value :=
  match s with
  | int => writeInt v
  | float => writeFloat v
  | string => writeString v
  | boolean => writeBoolean v
  | wide w => (w.output v).mapError .ofScalar

/-- The first member that stands for a value. -/
def memberOf? (members : List EnumMember) (v : Value) : Option EnumMember :=
  members.find? fun m => Value.same (.int m.value) v

/-- Writes the name of the member that stands for a value. -/
def writeMember (name : String) (members : List EnumMember) (v : Value) : Except CoercionError Value :=
  match memberOf? members v with
  | some m => .ok (.text m.name)
  | none => .error (.noMember name v.inspect)

end ThriftGateway.Graph
