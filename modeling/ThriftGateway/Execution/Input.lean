import ThriftGateway.Request.Printer
import ThriftGateway.Request.Suggestion
import ThriftGateway.Schema.DefaultLiteral

/-!
# Reading values

How the types of arguments and variables read given values and literals.  `readValue` and `readLiteral` give the
value that is read, and `valueFindings` and `literalFaults` say all that is wrong.
-/

namespace ThriftGateway.Execution

open Graph (CoercionError EnumMember GraphType InputField NamedType Scalar)
open Request (Literal TableTooNarrow didYouMean suggestions suggestions?)
open Schema (Definition TypeSystem)

/-- A step from a value to a part of it. -/
inductive PathStep where
  | key (name : String)
  | index (n : Nat)
  deriving DecidableEq, Repr

/-- The text of a path into a value. -/
def pathText (path : List PathStep) : String :=
  if path.isEmpty then ""
  else " at " ++ String.join (path.map fun
    | .key name => "." ++ name
    | .index n => "[" ++ toString n ++ "]")

/-! ### Leaf types -/

/-- A scalar reads a given value. -/
def readScalar (s : Scalar) (v : Value) : Except CoercionError Value :=
  match s, v with
  | .int, .int n => Graph.asInt n v
  | .int, .float d =>
    match d.integer? with
    | some n => Graph.asInt n v
    | none => .error (.nonInteger v.inspect)
  | .int, v => .error (.nonInteger v.inspect)
  | .float, .int n => Graph.exactFloat n
  | .float, .float d => if d.isFinite then .ok v else .error (.nonNumeric v.inspect)
  | .float, v => .error (.nonNumeric v.inspect)
  | .string, .text _ => .ok v
  | .string, v => .error (.nonText v.inspect)
  | .boolean, .bool _ => .ok v
  | .boolean, v => .error (.nonBoolean v.inspect)
  | .wide w, v => (w.input v).mapError .ofScalar

/-- A scalar reads a literal. -/
def readScalarLiteral (s : Scalar) (l : Literal) (bindings : List (String × Value)) :
    Except CoercionError Value :=
  match s, l with
  | .int, .int digits =>
    match Number.readInt 10 digits with
    | .ok n => if Graph.inIntRange n then .ok (.int n) else .error (.beyondInt digits)
    | .error e => .error (.numeral e)
  | .int, l => .error (.nonInteger l.withoutVariables.print)
  | .float, .int digits => .ok (Literal.floatValue digits)
  | .float, .float text => .ok (Literal.floatValue text)
  | .float, l => .error (.nonNumeric l.withoutVariables.print)
  | .string, .text t _ => .ok (.text t)
  | .string, l => .error (.nonText l.withoutVariables.print)
  | .boolean, .bool b => .ok (.bool b)
  | .boolean, l => .error (.nonBoolean l.withoutVariables.print)
  | .wide w, l => (w.inputLiteral l bindings).mapError .ofScalar

/-- Suggests members of an enumeration. -/
def memberHint (members : List EnumMember) (written : String) : Except CoercionError String :=
  match suggestions? written (members.map EnumMember.name) with
  | .ok names => .ok (didYouMean "the enum value" names)
  | .error e => .error (.suggestion e)

/-- The value of the member with a name. -/
def memberValue (enumeration : String) (members : List EnumMember) (name : String) :
    Except CoercionError Value := do
  match members.find? fun m => m.name = name with
  | some m => return .int m.value
  | none => throw (.unknownMember enumeration name (← memberHint members name))

/-- An enumeration reads a given value. -/
def readMember (enumeration : String) (members : List EnumMember) (v : Value) : Except CoercionError Value := do
  match v with
  | .text name => memberValue enumeration members name
  | v => throw (.memberNotText enumeration v.inspect (← memberHint members v.inspect))

/-- An enumeration reads a literal. -/
def readMemberLiteral (enumeration : String) (members : List EnumMember) (l : Literal) :
    Except CoercionError Value := do
  match l with
  | .word name => memberValue enumeration members name
  | l =>
    let shown := l.withoutVariables.print
    throw (.memberNotWord enumeration shown (← memberHint members shown))

/-- A leaf type reads a given value. -/
def readLeaf (d : Option Definition) (v : Value) : Except CoercionError Value :=
  match d with
  | some (.scalar s) => readScalar s v
  | some (.enumeration name _ members) => readMember name members v
  | _ => .ok v

/-- A leaf type reads a literal. -/
def readLeafLiteral (d : Option Definition) (l : Literal) (bindings : List (String × Value)) :
    Except CoercionError Value :=
  match d with
  | some (.scalar s) => readScalarLiteral s l bindings
  | some (.enumeration name _ members) => readMemberLiteral name members l
  | _ => .ok .null

/-! ### How deep literals are nested -/

mutual
/-- How deep a literal is nested. -/
def literalDepth : Literal → Nat
  | .list items => literalsDepth items + 1
  | .object fields => fieldsDepth fields + 1
  | _ => 1

/-- The depth of the deepest of several literals. -/
def literalsDepth : List Literal → Nat
  | [] => 0
  | l :: ls => max (literalDepth l) (literalsDepth ls)

/-- The depth of the deepest literal of several fields. -/
def fieldsDepth : List (String × Literal) → Nat
  | [] => 0
  | (_, l) :: fs => max (literalDepth l) (fieldsDepth fs)
end

/-! ### Reading given values -/

/-- Whether an input field has to be given. -/
def isRequired (f : InputField) : Bool := f.type.isNonNull && f.default.isNone

/-- A value that is there: what lacks stands for nothing. -/
def present? : Option Value → Option Value
  | some .undefined => none
  | v => v

/-- The value given for a field. -/
def given? (entries : List (Value × Value)) (name : String) : Option Value :=
  present? (Value.lookup? entries (.text name))

/-- Why nothing is read from a value. -/
inductive Misfit where
  | wrong
  | tooDeep
  deriving DecidableEq, Repr

/-- The most lists and objects that may stand in one another in the value of a variable. -/
def maxValueDepth : Nat := 200

/-- Puts together what is read for the fields of an input object; nothing if a field has to be given and is not,
or cannot be read. -/
def readFields {α : Type} (given : String → Option α) (read : GraphType → α → Except Misfit Value) :
    List InputField → Except Misfit (List (String × Value))
  | [] => .ok []
  | f :: fs =>
    match given f.name with
    | none =>
      if isRequired f then .error .wrong
      else
        (readFields given read fs).map fun rest => match f.default with
          | some v => (f.name, v) :: rest
          | none => rest
    | some x => do
      let v ← read f.type x
      return (f.name, v) :: (← readFields given read fs)

/-- The value that a type reads, if the given value is right and not nested deeper than `depth`. -/
def readValueAt (s : TypeSystem) (depth : Nat) (t : GraphType) (v : Value) : Except Misfit Value :=
  match t, v with
  | .nonNull _, .null => .error .wrong
  | .nonNull _, .undefined => .error .wrong
  | .nonNull t, v => readValueAt s depth t v
  | _, .null => .ok .null
  | _, .undefined => .ok .null
  | .list t, v =>
    match Schema.listItems? v, depth with
    | some items, depth + 1 => (items.mapM (readValueAt s depth t)).map .list
    | some _, 0 => .error .tooDeep
    | none, depth => (readValueAt s depth t v).map fun v => .list [v]
  | .named t, v =>
    match s.definition? t with
    | some (.input _ _ fields) =>
      match v, depth with
      | .map entries, depth + 1 =>
        if entries.all fun e => fields.any fun f => Value.same (.text f.name) e.1 then
          (readFields (given? entries) (readValueAt s depth) fields).map Value.record
        else .error .wrong
      | .map _, 0 => .error .tooDeep
      | _, _ => .error .wrong
    | d => (readLeaf d v).mapError fun _ => .wrong
  termination_by (depth, t)

/-- The value that a type reads, if the given value is right. -/
def readValue (s : TypeSystem) (t : GraphType) (v : Value) : Except Misfit Value := readValueAt s maxValueDepth t v

/-- Something wrong with a value: where, in what words, and which error from within is behind it. -/
structure InputFault where
  path : List PathStep
  message : String
  cause : Option CoercionError := none
  deriving Repr

/-- A leaf type's refusal; `found` is how the value is shown. -/
def refusal (path : List PathStep) (typeName found : String) (e : CoercionError) : InputFault :=
  if e.isInner then
    ⟨path, "Expected value of type '" ++ typeName ++ "', but encountered error '" ++ e.message ++ "'; found: " ++ found
      ++ ".", some e⟩
  else ⟨path, e.message, none⟩

/-- An input object is expected. -/
def notObject (path : List PathStep) (typeName found : String) : InputFault :=
  ⟨path, "Expected value of type '" ++ typeName ++ "' to be an object, found: " ++ found ++ ".", none⟩

/-- A field has to be given. -/
def fieldMissing (path : List PathStep) (typeName field found : String) : InputFault :=
  ⟨path, "Expected value of type '" ++ typeName ++ "' to include required field '" ++ field ++ "', found: " ++ found
    ++ ".", none⟩

/-- A field is given that there is not; `near` are the names that it may have been meant for. -/
def fieldUnknown (path : List PathStep) (typeName field : String) (near : List String) (found : String) :
    InputFault :=
  let hint := if near.isEmpty then ", found" else "." ++ didYouMean "" near ++ " Found"
  ⟨path, "Expected value of type '" ++ typeName ++ "' not to include unknown field '" ++ field ++ "'" ++ hint ++ ": "
    ++ found ++ ".", none⟩

/-- Something else than `null` is expected. -/
def nullGiven (path : List PathStep) (typeText : String) : InputFault :=
  ⟨path, "Expected value of non-null type '" ++ typeText ++ "' not to be None.", none⟩

/-- Something is expected to be given. -/
def nothingGiven (path : List PathStep) (typeText : String) : InputFault :=
  ⟨path, "Expected a value of non-null type '" ++ typeText ++ "' to be provided.", none⟩

/-- Items with their places. -/
def numbered {α : Type} (n : Nat) : List α → List (Nat × α)
  | [] => []
  | x :: xs => (n, x) :: numbered (n + 1) xs

/-- Why the names that a field may have been meant for cannot be found. -/
inductive Breakdown where
  /-- The field is not named by a text. -/
  | nameNotText (name : Value)
  | suggestion (error : TableTooNarrow)
  deriving Repr

/-- What is met on the way through a given value. -/
inductive Finding where
  | fault (f : InputFault)
  | tooDeep
  | breakdown (b : Breakdown)
  deriving Repr

/-- What is found at a field that there is not. -/
def unknownField (path : List PathStep) (typeName : String) (name : Value) (fields : List InputField)
    (found : String) : Finding :=
  match name with
  | .text field =>
    match suggestions? field (fields.map InputField.name) with
    | .ok near => .fault (fieldUnknown path typeName field near found)
    | .error e => .breakdown (.suggestion e)
  | name => .breakdown (.nameNotText name)

/-- What is wrong with a given value of a type; it may be nested as deep as `depth`. -/
def valueFindingsAt (s : TypeSystem) (depth : Nat) (path : List PathStep) (t : GraphType) (v : Value) :
    List Finding :=
  match t, v with
  | .nonNull t, .undefined => [.fault (nothingGiven path (s.written (.nonNull t)))]
  | .nonNull t, .null => [.fault (nullGiven path (s.written (.nonNull t)))]
  | .nonNull t, v => valueFindingsAt s depth path t v
  | _, .null => []
  | _, .undefined => []
  | .list t, v =>
    match Schema.listItems? v, depth with
    | some items, depth + 1 =>
      (numbered 0 items).flatMap fun (n, item) => valueFindingsAt s depth (path ++ [.index n]) t item
    | some _, 0 => [.tooDeep]
    | none, depth => valueFindingsAt s depth path t v
  | .named t, v =>
    match s.definition? t with
    | some (.input name _ fields) =>
      match v, depth with
      | .map entries, depth + 1 =>
        let inFields := fields.flatMap fun f =>
          match given? entries f.name with
          | none => if isRequired f then [.fault (fieldMissing path name f.name v.inspect)] else []
          | some x => valueFindingsAt s depth (path ++ [.key f.name]) f.type x
        let unknown := entries.filter fun e => !fields.any fun f => Value.same (.text f.name) e.1
        inFields ++ unknown.map fun e => unknownField path name e.1 fields v.inspect
      | .map _, 0 => [.tooDeep]
      | v, _ => [.fault (notObject path name v.inspect)]
    | d =>
      match readLeaf d v with
      | .ok _ => []
      | .error e => [.fault (refusal path (s.nameOf t) v.inspect e)]
  termination_by (depth, t)

/-- What is wrong with a given value of a type. -/
def valueFindings (s : TypeSystem) (t : GraphType) (v : Value) : List Finding := valueFindingsAt s maxValueDepth [] t v

/-! ### Reading literals -/

/-- The value of a variable. -/
def variableValue? (bindings : List (String × Value)) (name : String) : Option Value :=
  present? (bindings.lookup name)

/-- Whether a variable has no value or `null`. -/
def isLacking (bindings : List (String × Value)) (name : String) : Bool :=
  match variableValue? bindings name with
  | none => true
  | some .null => true
  | some _ => false

/-- The literal given for a field: the last of its name.  A variable without a value gives nothing. -/
def givenLiteral? (bindings : List (String × Value)) (fields : List (String × Literal)) (name : String) :
    Option Literal :=
  match (fields.reverse.lookup name) with
  | some (.var v) => if (variableValue? bindings v).isNone then none else some (.var v)
  | l => l

/-- The value that a type reads from a literal, if it is right; `fuel` bounds its depth. -/
def readLiteralAt (s : TypeSystem) (bindings : List (String × Value)) (fuel : Nat) (t : GraphType) (l : Literal) :
    Except Misfit Value :=
  match t, l with
  | t, .var name =>
    if t.isNonNull && isLacking bindings name then .error .wrong
    else (variableValue? bindings name).elim (.error .wrong) .ok
  | .nonNull _, .null => .error .wrong
  | .nonNull t, l => readLiteralAt s bindings fuel t l
  | _, .null => .ok .null
  | .list t, .list items =>
    match fuel with
    | 0 => .error .tooDeep
    | fuel + 1 =>
      let readItem (item : Literal) : Except Misfit Value :=
        match readLiteralAt s bindings fuel t item, item with
        | .error e, .var name => if isLacking bindings name && !t.isNonNull then .ok .null else .error e
        | r, _ => r
      (items.mapM readItem).map .list
  | .list t, l => (readLiteralAt s bindings fuel t l).map fun v => .list [v]
  | .named t, l =>
    match s.definition? t with
    | some (.input _ _ fields) =>
      match l, fuel with
      | .object literals, fuel + 1 =>
        if literals.all fun e => fields.any fun f => f.name = e.1 then
          (readFields (givenLiteral? bindings literals) (readLiteralAt s bindings fuel) fields).map Value.record
        else .error .wrong
      | _, _ => .error .wrong
    | d => (readLeafLiteral d l bindings).mapError fun _ => .wrong
  termination_by (fuel, t)

/-- The value that a type reads from a literal, if it is right. -/
def readLiteral (s : TypeSystem) (bindings : List (String × Value)) (t : GraphType) (l : Literal) : Option Value :=
  (readLiteralAt s bindings (literalDepth l + 1) t l).toOption

/-- A variable at a place that forbids `null` has to have a value; without `bindings` nothing is known of it. -/
def variableFaults (s : TypeSystem) (bindings : Option (List (String × Value))) (path : List PathStep) (t : GraphType)
    (name : String) : List InputFault :=
  match bindings with
  | none => []
  | some bindings =>
    let words (lead trail : String) : String :=
      "Expected variable '$" ++ name ++ "' provided to " ++ lead ++ " '" ++ s.written t ++ "' " ++ trail
    if !t.isNonNull then []
    else
      match variableValue? bindings name with
      | none => [⟨path, words "type" "to provide a runtime value.", none⟩]
      | some .null => [⟨path, words "non-null type" "not to be None.", none⟩]
      | some _ => []

/-- What is wrong with a literal of a type. -/
def literalFaultsAt (s : TypeSystem) (bindings : Option (List (String × Value))) (fuel : Nat) (path : List PathStep)
    (t : GraphType) (l : Literal) : List InputFault :=
  match t, l with
  | t, .var name => variableFaults s bindings path t name
  | .nonNull t, .null => [nullGiven path (s.written (.nonNull t))]
  | .nonNull t, l => literalFaultsAt s bindings fuel path t l
  | _, .null => []
  | .list t, .list items =>
    match fuel with
    | 0 => []
    | fuel + 1 =>
      (numbered 0 items).flatMap fun (n, item) => literalFaultsAt s bindings fuel (path ++ [.index n]) t item
  | .list t, l => literalFaultsAt s bindings fuel path t l
  | .named t, l =>
    match s.definition? t with
    | some (.input name _ fields) =>
      match l, fuel with
      | .object literals, fuel + 1 =>
        let inFields := fields.flatMap fun f =>
          match literals.reverse.lookup f.name with
          | none => if isRequired f then [fieldMissing path name f.name l.print] else []
          | some x => literalFaultsAt s bindings fuel (path ++ [.key f.name]) f.type x
        let unknown := literals.filter fun e => !fields.any fun f => f.name = e.1
        inFields ++ unknown.map fun e =>
          fieldUnknown path name e.1 (suggestions e.1 (fields.map InputField.name)) l.print
      | .object _, 0 => []
      | l, _ => [notObject path name l.print]
    | d =>
      match readLeafLiteral d l [] with
      | .ok _ => []
      | .error e => [refusal path (s.nameOf t) l.print e]
  termination_by (fuel, t)

/-- What is wrong with a literal of a type, as far as can be told without the values of variables. -/
def literalFaults (s : TypeSystem) (bindings : Option (List (String × Value))) (t : GraphType) (l : Literal) :
    List InputFault :=
  literalFaultsAt s bindings (literalDepth l + 1) [] t l

end ThriftGateway.Execution
