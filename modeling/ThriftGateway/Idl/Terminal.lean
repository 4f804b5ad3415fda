import ThriftGateway.Text.Ascii

/-!
# Terminals of the Thrift interface language

The kinds of pieces that a Thrift text is cut into.  `Terminal.match?` says how many characters at the front of
a text a terminal takes.  The constructors stand in the order in which terminals are tried: numbers and base
types before identifiers, and words before marks.
-/

namespace ThriftGateway.Idl

open Text (isDigit isHexDigit isNameStart isNamePart)

/-- The kinds of tokens. -/
inductive Terminal where
  | hexConstant
  | doubleConstant
  | baseType
  | identifier
  | lineComment
  | literal
  | blockComment
  | blank
  | intConstant
  | kwCppInclude
  | kwException
  | kwNamespace
  | kwOptional
  | kwRequired
  | kwExtends
  | kwInclude
  | kwService
  | kwTypedef
  | kwOneway
  | kwStruct
  | kwThrows
  | kwConst
  | kwFalse
  | kwUnion
  | kwEnum
  | kwList
  | kwTrue
  | kwVoid
  | kwMap
  | kwSet
  | colon
  | comma
  | equal
  | leftBrace
  | lessThan
  | leftParen
  | leftBracket
  | moreThan
  | rightBrace
  | rightParen
  | rightBracket
  | semicolon
  | star
  /-- The end of the text, which no characters stand for. -/
  | stop
  deriving DecidableEq, Repr

namespace Terminal

/-- All terminals that characters stand for, in the order in which they are tried. -/
def all : List Terminal :=
  [hexConstant, doubleConstant, baseType, identifier, lineComment, literal, blockComment, blank, intConstant,
    kwCppInclude, kwException, kwNamespace, kwOptional, kwRequired, kwExtends, kwInclude, kwService, kwTypedef,
    kwOneway, kwStruct, kwThrows, kwConst, kwFalse, kwUnion, kwEnum, kwList, kwTrue, kwVoid, kwMap, kwSet,
    colon, comma, equal, leftBrace, lessThan, leftParen, leftBracket, moreThan, rightBrace, rightParen,
    rightBracket, semicolon, star]

/-- The place of a terminal in the order in which terminals are tried; the end of the text is last. -/
def number (t : Terminal) : Nat := t.ctorIdx

/-- How many terminals there are, the end of the text included. -/
def count : Nat := 44

/-- The characters that a word or mark consists of; nothing for a terminal with many spellings. -/
def spelling? : Terminal → Option String
  | kwCppInclude => some "cpp_include"
  | kwException => some "exception"
  | kwNamespace => some "namespace"
  | kwOptional => some "optional"
  | kwRequired => some "required"
  | kwExtends => some "extends"
  | kwInclude => some "include"
  | kwService => some "service"
  | kwTypedef => some "typedef"
  | kwOneway => some "oneway"
  | kwStruct => some "struct"
  | kwThrows => some "throws"
  | kwConst => some "const"
  | kwFalse => some "false"
  | kwUnion => some "union"
  | kwEnum => some "enum"
  | kwList => some "list"
  | kwTrue => some "true"
  | kwVoid => some "void"
  | kwMap => some "map"
  | kwSet => some "set"
  | colon => some ":"
  | comma => some ","
  | equal => some "="
  | leftBrace => some "\x7b"
  | lessThan => some "<"
  | leftParen => some "("
  | leftBracket => some "["
  | moreThan => some ">"
  | rightBrace => some "\x7d"
  | rightParen => some ")"
  | rightBracket => some "]"
  | semicolon => some ";"
  | star => some "*"
  | _ => none

/-- Words are spelled like identifiers. -/
def isKeyword (t : Terminal) : Bool := kwCppInclude.number ≤ t.number && t.number ≤ kwSet.number

/-- Blanks and comments stand anywhere between tokens and mean nothing to the grammar. -/
def isIgnored : Terminal → Bool
  | lineComment | blockComment | blank => true
  | _ => false

/-- The name of a terminal in messages. -/
def name : Terminal → String
  | hexConstant => "HEX_CONSTANT"
  | doubleConstant => "DOUBLE_CONSTANT"
  | baseType => "BASE_TYPE"
  | identifier => "IDENTIFIER"
  | lineComment => "LINE_COMMENT"
  | literal => "LITERAL"
  | blockComment => "BLOCK_COMMENT"
  | blank => "WS"
  | intConstant => "INT_CONSTANT"
  | kwCppInclude => "CPP_INCLUDE"
  | kwException => "EXCEPTION"
  | kwNamespace => "NAMESPACE"
  | kwOptional => "OPTIONAL"
  | kwRequired => "REQUIRED"
  | kwExtends => "EXTENDS"
  | kwInclude => "INCLUDE"
  | kwService => "SERVICE"
  | kwTypedef => "TYPEDEF"
  | kwOneway => "ONEWAY"
  | kwStruct => "STRUCT"
  | kwThrows => "THROWS"
  | kwConst => "CONST"
  | kwFalse => "FALSE"
  | kwUnion => "UNION"
  | kwEnum => "ENUM"
  | kwList => "LIST"
  | kwTrue => "TRUE"
  | kwVoid => "VOID"
  | kwMap => "MAP"
  | kwSet => "SET"
  | colon => "COLON"
  | comma => "COMMA"
  | equal => "EQUAL"
  | leftBrace => "LBRACE"
  | lessThan => "LESSTHAN"
  | leftParen => "LPAR"
  | leftBracket => "LSQB"
  | moreThan => "MORETHAN"
  | rightBrace => "RBRACE"
  | rightParen => "RPAR"
  | rightBracket => "RSQB"
  | semicolon => "SEMICOLON"
  | star => "STAR"
  | stop => "$END"

end Terminal

/-! ### How far each terminal reaches -/

/-- The length of the longest front part whose characters all satisfy `p`. -/
def spanLength (p : Char → Bool) (cs : List Char) : Nat := (cs.takeWhile p).length

/-- A blank between tokens. -/
def isBlank (c : Char) : Bool := c = ' ' || c = '\t' || c = '\x0c' || c = '\r' || c = '\n'

/-- The length of an optional sign, and what follows it. -/
def splitSign : List Char → Nat × List Char
  | '+' :: cs => (1, cs)
  | '-' :: cs => (1, cs)
  | cs => (0, cs)

/-- An optional sign and digits. -/
def matchInt (cs : List Char) : Option Nat :=
  let (s, cs) := splitSign cs
  let d := spanLength isDigit cs
  if d = 0 then none else some (s + d)

/-- An optional sign, `0x` and hexadecimal digits. -/
def matchHex (cs : List Char) : Option Nat :=
  let (s, cs) := splitSign cs
  match cs with
  | '0' :: 'x' :: cs =>
    let d := spanLength isHexDigit cs
    if d = 0 then none else some (s + 2 + d)
  | _ => none

/-- The letter `e` and a number. -/
def matchExponent : List Char → Option Nat
  | 'e' :: cs => (matchInt cs).map (· + 1)
  | 'E' :: cs => (matchInt cs).map (· + 1)
  | _ => none

/-- Digits with a point among or next to them, and perhaps an exponent. -/
def matchPointed (cs : List Char) : Option Nat :=
  let d := spanLength isDigit cs
  match cs.drop d with
  | '.' :: cs =>
    let f := spanLength isDigit cs
    if d = 0 ∧ f = 0 then none
    else some (d + 1 + f + (matchExponent (cs.drop f)).getD 0)
  | _ => none

/-- A number with a point or an exponent; digits followed at once by an exponent are tried first. -/
def matchDouble (cs : List Char) : Option Nat :=
  let (s, cs) := splitSign cs
  let d := spanLength isDigit cs
  let whole := if d = 0 then none else (matchExponent (cs.drop d)).map (d + ·)
  (whole.or (matchPointed cs)).map (s + ·)

/-- The names of the base types. -/
def baseTypeNames : List String := ["bool", "byte", "i8", "i16", "i32", "i64", "double", "string", "binary"]

/-- A base type name that neither a name character nor a dot follows. -/
def matchBaseType (cs : List Char) : Option Nat :=
  (baseTypeNames.find? fun name =>
    name.toList.isPrefixOf cs &&
      match cs.drop name.length with
      | [] => true
      | c :: _ => !(isNamePart c || c = '.')).map String.length

/-- What follows the first character of an identifier: name characters, and dots that a name start follows. -/
def nameTail : List Char → Nat
  | [] => 0
  | '.' :: d :: cs => if isNameStart d then nameTail cs + 2 else 0
  | c :: cs => if isNamePart c then nameTail cs + 1 else 0

/-- Names joined by dots. -/
def matchIdentifier : List Char → Option Nat
  | [] => none
  | c :: cs => if isNameStart c then some (nameTail cs + 1) else none

/-- `//` or `#` and the rest of the line. -/
def matchLineComment : List Char → Option Nat
  | '/' :: '/' :: cs => some (2 + spanLength (· ≠ '\n') cs)
  | '#' :: cs => some (1 + spanLength (· ≠ '\n') cs)
  | _ => none

/-- The length of a text up to and including the first `*/`. -/
def toCommentEnd : List Char → Option Nat
  | [] => none
  | '*' :: '/' :: _ => some 2
  | _ :: cs => (toCommentEnd cs).map (· + 1)

/-- `/*` up to the first `*/`. -/
def matchBlockComment : List Char → Option Nat
  | '/' :: '*' :: cs => (toCommentEnd cs).map (· + 2)
  | _ => none

/-- A quote, characters other than it, and the same quote. -/
def matchQuoted (q : Char) (cs : List Char) : Option Nat :=
  let n := spanLength (· ≠ q) cs
  if (cs.drop n).isEmpty then none else some (n + 2)

/-- A text in double or single quotes. -/
def matchLiteral : List Char → Option Nat
  | '"' :: cs => matchQuoted '"' cs
  | '\'' :: cs => matchQuoted '\'' cs
  | _ => none

/-- One or more blanks. -/
def matchBlank (cs : List Char) : Option Nat :=
  let n := spanLength isBlank cs
  if n = 0 then none else some n

/-- How many characters at the front of the text the terminal takes, if it can stand there. -/
def Terminal.match? (t : Terminal) (cs : List Char) : Option Nat :=
  match t with
  | .hexConstant => matchHex cs
  | .doubleConstant => matchDouble cs
  | .baseType => matchBaseType cs
  | .identifier => matchIdentifier cs
  | .lineComment => matchLineComment cs
  | .literal => matchLiteral cs
  | .blockComment => matchBlockComment cs
  | .blank => matchBlank cs
  | .intConstant => matchInt cs
  | t => t.spelling?.bind fun s => if s.toList.isPrefixOf cs then some s.length else none

end ThriftGateway.Idl
