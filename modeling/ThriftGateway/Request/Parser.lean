import ThriftGateway.Request.Document
import ThriftGateway.Request.Token

/-!
# Parsing requests

`parseDocument` reads a request, which consists of operations and fragments, and `parseLiteral` reads a single literal.
A reader looks one token ahead and no further, so that of two errors the one that comes first in the text is found.
Definitions and extensions of types are no part of a request here and count as malformed, and so does the description
of a variable.
-/

namespace ThriftGateway.Request

/-- Where a reader stands: before a token, or at the end of the text. -/
structure Position where
  /-- How long the text is. -/
  size : Nat
  /-- The text behind the last token. -/
  behind : List Char
  /-- The text from the next token on. -/
  ahead : List Char
  next : Option Token
  /-- The text behind the next token. -/
  rest : List Char

/-- The position in a text of a size before the first token of `cs`. -/
def Position.before (size : Nat) (cs : List Char) : Cut Position := do
  let ahead := skipSeparators false cs
  let (next, rest) ← firstToken ahead
  return ⟨size, cs, ahead, next, rest⟩

/-- A reader takes tokens from the front of a text. -/
abbrev Reader := StateT Position (Except SyntaxError)

/-- The most lists, objects and selections that may stand in one another. -/
def maxDepth : Nat := 200

namespace Reader

/-- The next token. -/
def peek : Reader (Option Token) := do return (← get).next

/-- Takes one token, and finds the one behind it. -/
def advance : Reader Unit := do
  let p ← get
  set (← Position.before p.size p.rest)

/-- Reads something, and says where it stands. -/
def withExtent {α : Type} (r : Reader α) : Reader (Extent × α) := do
  let start ← get
  let x ← r
  let stop ← get
  return (⟨start.size - start.ahead.length, stop.size - stop.behind.length⟩, x)

/-- The next token is wrong. -/
def unexpected {α : Type} : Reader α := do throw (.unexpected (← peek))

/-- Takes a mark that may be there. -/
def takeMark (m : String) : Reader Bool := do
  if (← peek) = some (.mark m) then
    advance
    return true
  return false

/-- Takes a mark that must be there. -/
def mark (m : String) : Reader Unit := do
  let found ← peek
  unless ← takeMark m do throw (.expected (inApostrophes m) found)

/-- Takes a name. -/
def name : Reader String := do
  match ← peek with
  | some (.name s) => do
    advance
    return s
  | found => throw (.expected "Name" found)

/-- Takes a name, and says where it stands. -/
def writtenName : Reader WrittenName := do
  let (extent, text) ← withExtent name
  return ⟨extent, text⟩

/-- Reads items up to a closing mark; `fuel` is more than their number. -/
def itemsUntil {α : Type} (item : Reader α) (close : String) : (fuel : Nat) → Reader (List α)
  | 0 => unexpected
  | fuel + 1 => do
    if ← takeMark close then return []
    let x ← item
    return x :: (← itemsUntil item close fuel)

/-- Reads items up to a closing mark. -/
def items {α : Type} (item : Reader α) (close : String) : Reader (List α) := do
  itemsUntil item close ((← get).rest.length + 2)

/-- Reads one item or more up to a closing mark. -/
def someItems {α : Type} (item : Reader α) (close : String) : Reader (List α) := do
  let x ← item
  return x :: (← items item close)

/-- Reads a literal; variables are refused in a constant.  `depth` steps into it are left. -/
def literal (constant : Bool) (depth : Nat) : Reader Literal := do
  match ← peek with
  | some (.mark "[") =>
    match depth with
    | 0 => throw .tooDeep
    | depth + 1 => do
      advance
      return .list (← items (literal constant depth) "]")
  | some (.mark "\x7b") =>
    match depth with
    | 0 => throw .tooDeep
    | depth + 1 => do
      advance
      return .object (← items (do
        let field ← name
        mark ":"
        return (field, ← literal constant depth)) "\x7d")
  | some (.int s) => do
    advance
    return .int s
  | some (.float s) => do
    advance
    return .float s
  | some (.text s) => do
    advance
    return .text s false
  | some (.block s) => do
    advance
    return .text s true
  | some (.name s) => do
    advance
    return if s = "true" then .bool true
      else if s = "false" then .bool false
      else if s = "null" then .null
      else .word s
  | some (.mark "$") => do
    advance
    if constant then
      match ← peek with
      | some (.name s) => throw (.variableInConstant s)
      | _ => throw (.unexpected (some (.mark "$")))
    return .var (← name)
  | _ => unexpected

/-- Reads a type; `depth` steps into lists are left. -/
def typeNotation (depth : Nat) : Reader TypeNotation := do
  let inner ←
    if (← peek) = some (.mark "[") then
      match depth with
      | 0 => throw .tooDeep
      | depth + 1 => do
        advance
        let element ← typeNotation depth
        mark "]"
        pure (TypeNotation.list element)
    else do pure (TypeNotation.named (← name))
  return if ← takeMark "!" then .nonNull inner else inner

/-- Reads an argument, without variables in a constant; `depth` steps into its value are left. -/
def argument (constant : Bool) (depth : Nat) : Reader Argument := do
  let (extent, name, value) ← withExtent do
    let n ← name
    mark ":"
    return (n, ← literal constant depth)
  return ⟨extent, name, value⟩

/-- Reads arguments if there are any. -/
def arguments (constant : Bool) (depth : Nat) : Reader (List Argument) := do
  if ← takeMark "(" then someItems (argument constant depth) ")" else return []

/-- Reads directives as long as there are more; `fuel` is more than their number. -/
def directivesUpTo (constant : Bool) (depth : Nat) : (fuel : Nat) → Reader (List Directive)
  | 0 => unexpected
  | fuel + 1 => do
    if (← peek) = some (.mark "@") then
      let (extent, n, given) ← withExtent do
        advance
        let n ← writtenName
        return (n, ← arguments constant depth)
      return ⟨extent, n, given⟩ :: (← directivesUpTo constant depth fuel)
    else return []

/-- Reads the directives that follow, if there are any. -/
def directives (constant : Bool) (depth : Nat) : Reader (List Directive) := do
  directivesUpTo constant depth ((← get).rest.length + 2)

/-- Reads a variable with its type and default. -/
def variableDefinition : Reader Variable := do
  let (extent, name, type, default, ds) ← withExtent do
    mark "$"
    let n ← name
    mark ":"
    let t ← typeNotation maxDepth
    let default ← if ← takeMark "=" then do pure (some (← literal true maxDepth)) else pure none
    return (n, t, default, ← directives true maxDepth)
  return ⟨extent, name, type, default, ds⟩

/-- Reads the name of a fragment. -/
def fragmentName : Reader WrittenName := do
  if (← peek) = some (.name "on") then unexpected
  writtenName

/-- Reads the condition of a fragment: a type behind a word. -/
def condition : Reader WrittenName := do
  if (← peek) = some (.name "on") then
    advance
    writtenName
  else throw (.expected "'on'" (← peek))

/-- Reads what stands in braces, each selection by `inner`, which lacks where selections are nested too deeply. -/
def braced (inner : Option (Reader Selection)) : Reader (Extent × List Selection) :=
  withExtent do
    mark "\x7b"
    match inner with
    | none => throw .tooDeep
    | some r => items r "\x7d"

/-- Reads a selected field; `depth` steps into its arguments are left. -/
def field (depth : Nat) (inner : Option (Reader Selection)) : Reader Selection := do
  let (extent, read) ← withExtent do
    let first ← writtenName
    let (alias?, n) ← if ← takeMark ":" then do pure (some first, ← writtenName) else pure (none, first)
    let given ← arguments false depth
    let ds ← directives false depth
    if (← peek) = some (.mark "\x7b") then do
      let (braces, selections) ← braced inner
      return fun extent => Selection.field extent alias? n given ds (some braces) selections
    else return fun extent => Selection.field extent alias? n given ds none []
  return read extent

/-- Reads what is selected through a fragment: by its name, or in braces of its own; `depth` steps into arguments are
left. -/
def spread (depth : Nat) (inner : Option (Reader Selection)) : Reader Selection := do
  let (extent, read) ← withExtent do
    mark "..."
    match ← peek with
    | some (.name "on") => do
      let c ← condition
      let ds ← directives false depth
      let (braces, selections) ← braced inner
      return fun extent => Selection.inline extent (some c) ds braces selections
    | some (.name _) => do
      let n ← writtenName
      let ds ← directives false depth
      return fun extent => Selection.spread extent n ds
    | _ => do
      let ds ← directives false depth
      let (braces, selections) ← braced inner
      return fun extent => Selection.inline extent none ds braces selections
  return read extent

/-- Reads what is selected, one step less deep inside by `inner`. -/
def selectionWith (depth : Nat) (inner : Option (Reader Selection)) : Reader Selection := do
  if (← peek) = some (.mark "...") then spread depth inner else field depth inner

/-- Reads what is selected; `depth` steps into it are left. -/
def selection : (depth : Nat) → Reader Selection
  | 0 => selectionWith 0 none
  | depth + 1 => selectionWith (depth + 1) (some (selection depth))

/-- Reads what an operation or a fragment selects, and says where it stands. -/
def selectionSet : Reader (Extent × List Selection) := braced (some (selection (maxDepth - 1)))

/-- The kind of operations that a word stands for. -/
def operationKind? (word : String) : Option OperationKind :=
  [.query, .mutation, .subscription].find? (·.word = word)

/-- Takes the description of a part of a request that may be there. -/
def description : Reader Unit := do
  let isText : Option Token → Bool
    | some (.text _) => true
    | some (.block _) => true
    | _ => false
  if isText (← peek) then
    advance
    match ← peek with
    | some (.mark "\x7b") => throw .describedSelection
    | some (.name s) => if (operationKind? s).isNone && s ≠ "fragment" then throw .strayDescription
    | _ => unexpected

/-- Reads an operation behind the word for its kind: a name, variables and directives, if there are any, and a
selection. -/
def operation (kind : OperationKind) : Reader (Extent → DocumentPart) := do
  advance
  let n ← match ← peek with
    | some (.name _) => do pure (some (← writtenName))
    | _ => pure none
  let parameters ← if ← takeMark "(" then someItems variableDefinition ")" else pure []
  let ds ← directives false maxDepth
  let (braces, selections) ← selectionSet
  return fun extent => .operation ⟨extent, kind, n, parameters, ds, braces, selections⟩

/-- Reads a fragment with its name, its condition and its directives. -/
def fragment : Reader (Extent → DocumentPart) := do
  advance
  let n ← fragmentName
  let c ← condition
  let ds ← directives false maxDepth
  let (braces, selections) ← selectionSet
  return fun extent => .fragment ⟨extent, n, c, ds, braces, selections⟩

/-- Reads a part of a request: a bare selection, or an operation or a fragment, before which a description may stand. -/
def part : Reader DocumentPart := do
  let (extent, read) ← withExtent do
    description
    match ← peek with
    | some (.mark "\x7b") => do
      let (braces, selections) ← selectionSet
      return fun extent => DocumentPart.operation ⟨extent, .query, none, [], [], braces, selections⟩
    | some (.name "fragment") => fragment
    | some (.name word) =>
      match operationKind? word with
      | some kind => operation kind
      | none => unexpected
    | _ => unexpected
  return read extent

/-- Reads parts up to the end of the text; `fuel` is more than their number. -/
def partsUpTo : (fuel : Nat) → Reader (List DocumentPart)
  | 0 => unexpected
  | fuel + 1 => do
    let x ← part
    if (← peek).isNone then return [x]
    return x :: (← partsUpTo fuel)

/-- Reads all of a request, which has at least one part. -/
def document : Reader Document := do
  let start ← get
  return ⟨start.size, ← partsUpTo (start.size + 1)⟩

/-- Reads a literal with which the text ends. -/
def onlyLiteral : Reader Literal := do
  let l ← literal false maxDepth
  match ← peek with
  | none => return l
  | found => throw (.expected "<EOF>" found)

end Reader

/-- Reads all of a text. -/
def readAll {α : Type} (r : Reader α) (text : String) : Except SyntaxError α := do
  let cs := text.toList
  let (x, _) ← r.run (← Position.before cs.length cs)
  return x

/-- The parts of a request. -/
def parseDocument (text : String) : Except SyntaxError Document := readAll Reader.document text

/-- The literal that a text is. -/
def parseLiteral (text : String) : Except SyntaxError Literal := readAll Reader.onlyLiteral text

end ThriftGateway.Request
