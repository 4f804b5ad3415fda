import ThriftGateway.Graph.Session

/-!
# Compiling types

Type expressions, fields, declarations and functions become types of the graph.  The fields of a node are compiled
when they are asked for, so declarations may refer to one another in any way.
-/

namespace ThriftGateway.Graph

open Idl (Declaration Field Function TypeExpr)
open Number (NumeralError)
open Source (Path)

/-- The value of a member of an enumeration: its initializer, or its place among the members. -/
def memberValue (place : Nat) (m : Idl.Member) : Except NumeralError Int :=
  match m.initializer with
  | none => .ok place
  | some l => integerOfLiteral l

/-- The members of an enumeration from a place on. -/
def membersFrom (place : Nat) : List Idl.Member → Except NumeralError (List EnumMember)
  | [] => .ok []
  | m :: ms => do
    let v ← memberValue place m
    return ⟨m.name, v, m.description⟩ :: (← membersFrom (place + 1) ms)

/-- Makes the node for an enumeration. -/
def makeEnumeration (file : Path) (e : Idl.Enumeration) : Compile Node := do
  let members ← Work.ofExcept .numeral (membersFrom 0 e.members)
  let members := collect EnumMember.name members
  let name ← giveName ⟨file.written, e.name, false, true⟩
  return .enumeration name members e.description

/-- Makes the node for a struct seen from one side; without a direction it is seen as a result. -/
def makeStruct (direction : Option Direction) (file : Path) (struct : Idl.Struct) : Compile Node := do
  match direction with
  | some .input => return .input (← giveName ⟨file.written, struct.name, true, false⟩) file struct
  | _ => return .output (← giveName ⟨file.written, struct.name, false, false⟩) file struct

/-- The scalar or node for a core. -/
def compileCore (direction : Option Direction) : Core → Compile NamedType
  | .scalar s => return .scalar s
  | .struct file struct => do
    return .node (← nodeFor ⟨file.written, struct.name, direction⟩ (makeStruct direction file struct))
  | .enumeration file e => do
    if (← get).enumsAsInts then return .scalar .int
    return .node (← nodeFor ⟨file.written, e.name, none⟩ (makeEnumeration file e))

/-- A type with so much around it, the outermost first. -/
def wrapped : List Wrapping → NamedType → GraphType
  | [], t => .named t
  | .list :: ws, t => .list (wrapped ws t)
  | .nonNull :: ws, t => .nonNull (wrapped ws t)

/-- The type for an expansion. -/
def compileExpansion (direction : Option Direction) (e : Except ExpansionError Expansion) : Compile GraphType := do
  let e ← Work.ofExcept .expansion e
  return wrapped e.around (← compileCore direction e.core)

/-- Compiles a type expression of a file. -/
def compileType (direction : Option Direction) (file : Path) (t : TypeExpr) : Compile GraphType := do
  compileExpansion direction (expandType (← get).library [] file t)

/-- Compiles a declaration of a file. -/
def compileDeclaration (direction : Option Direction) (file : Path) (d : Declaration) : Compile GraphType :=
  compileType direction file (.declared d)

/-- Compiles the type of a field; one that is required forbids `null`. -/
def compileField (direction : Option Direction) (file : Path) (f : Field) : Compile GraphType :=
  compileType direction file (.field f)

/-- Compiles a field that takes a value. -/
def compileInputField (file : Path) (f : Field) : Compile InputField := do
  let type ← compileField (some .input) file f
  let default ← Work.ofExcept .numeral (defaultFor f.default type)
  return ⟨f.name, type, default, f.description⟩

/-- Compiles a field that gives a value. -/
def compileOutputField (file : Path) (f : Field) : Compile OutputField := do
  return ⟨f.name, ← compileField (some .output) file f, [], f.description⟩

/-- Compiles fields one after another. -/
def compileInputFields (file : Path) : List Field → Compile (List InputField)
  | [] => return []
  | f :: fs => do
    let x ← compileInputField file f
    return x :: (← compileInputFields file fs)

/-- Compiles fields one after another. -/
def compileOutputFields (file : Path) : List Field → Compile (List OutputField)
  | [] => return []
  | f :: fs => do
    let x ← compileOutputField file f
    return x :: (← compileOutputFields file fs)

/-- Compiles a function: its result, then its arguments. -/
def compileFunction (file : Path) (f : Function) : Compile OutputField := do
  let type ← compileType (some .output) file f.result
  let arguments := collect InputField.name (← compileInputFields file f.arguments)
  Work.ofExcept .name (checkAll checkName (arguments.map InputField.name))
  return ⟨f.name, type, arguments, f.description⟩

/-! ### Fields of nodes -/

/-- The name of the field that stands for the fields of a struct without any. -/
def placeholderName : String := "_"

/-- What clients are told about the placeholder. -/
def placeholderDescription : String := "This is just a placeholder"

/-- The fields of a struct seen as an argument. -/
def structInputFields (file : Path) (s : Idl.Struct) : Compile (List InputField) := do
  if s.fields.isEmpty then
    return [⟨placeholderName, .named (.scalar .boolean), none, some placeholderDescription⟩]
  return collect InputField.name (← compileInputFields file s.fields)

/-- The fields of a struct seen as a result. -/
def structOutputFields (file : Path) (s : Idl.Struct) : Compile (List OutputField) := do
  if s.fields.isEmpty then
    return [⟨placeholderName, .named (.scalar .boolean), [], some placeholderDescription⟩]
  return collect OutputField.name (← compileOutputFields file s.fields)

/-- The fields of a node. -/
inductive Fields where
  | input (fields : List InputField)
  | output (fields : List OutputField)
  /-- The node has members or nothing. -/
  | none
  deriving Repr

/-- Runs work whose failure means that the fields of a type cannot be told. -/
def withinFields {α : Type} (typeName : String) (work : Compile α) : Work FieldsError α :=
  ExceptT.adapt (FieldsError.unresolved typeName) work

/-- The fields of a node, compiled in the session.  Of an enumeration, the names of the members are checked. -/
def nodeFields : Node → Work FieldsError Fields
  | .input name file s => do
    let fields ← withinFields name (structInputFields file s)
    Work.ofExcept .name (checkAll checkName (fields.map InputField.name))
    return .input fields
  | .output name file s => do
    let fields ← withinFields name (structOutputFields file s)
    Work.ofExcept .name (checkAll checkName (fields.map OutputField.name))
    return .output fields
  | .enumeration _ members _ => do
    Work.ofExcept .name (checkAll checkMemberName (members.map EnumMember.name))
    return .none
  | .foreign => return .none

end ThriftGateway.Graph
