import ThriftGateway.Text.Blank
import ThriftGateway.Text.Quoted

/-!
# Text literals

Texts between single double quotes, with escapes, and block texts between triple quotes, whose common indentation
does not belong to them.
-/

namespace ThriftGateway.Request

open Text (hexDigit)

/-- A digit of a number in base 16, with capital letters. -/
def capitalHexDigit (n : Nat) : Char := (hexDigit n).toUpper

/-- A character inside double quotes: quotes, backslashes and control characters are escaped. -/
def escapeChar (c : Char) : List Char :=
  let n := c.toNat
  if c = '"' ∨ c = '\\' then ['\\', c]
  else if n = 8 then ['\\', 'b']
  else if n = 9 then ['\\', 't']
  else if n = 10 then ['\\', 'n']
  else if n = 12 then ['\\', 'f']
  else if n = 13 then ['\\', 'r']
  else if n < 0x20 ∨ (0x7F ≤ n ∧ n < 0xA0) then
    ['\\', 'u', '0', '0', capitalHexDigit (n / 16), capitalHexDigit (n % 16)]
  else [c]

/-- A text between double quotes. -/
def quotedText (s : String) : String := "\"" ++ String.ofList (s.toList.flatMap escapeChar) ++ "\""

/-- A space or a tab. -/
def isIndent (c : Char) : Bool := c = ' ' || c = '\t'

/-- Triple quotes inside a block text, escaped. -/
def escapeTripleQuotes : List Char → List Char
  | '"' :: '"' :: '"' :: cs => '\\' :: '"' :: '"' :: '"' :: escapeTripleQuotes cs
  | c :: cs => c :: escapeTripleQuotes cs
  | [] => []

/-- A text ends with another. -/
def endsWith (cs tail : List Char) : Bool := tail.isSuffixOf cs

/-- A text between triple quotes.  It stands on lines of its own if it has several lines or is long, or where
its end would be hard to tell from the quotes. -/
def blockText (s : String) : String :=
  let cs := s.toList
  let escaped := escapeTripleQuotes cs
  let lines := Text.splitAt '\n' escaped
  let single : Bool := lines.length ≤ 1
  let leadingLine : Bool := 1 < lines.length && (lines.drop 1).all fun l => l.head?.all isIndent
  let tripleAtEnd := endsWith escaped "\\\"\"\"".toList
  let trailingLine : Bool := (endsWith cs ['"'] && !tripleAtEnd) || endsWith cs ['\\']
  let severalLines : Bool := !single || 70 < cs.length || trailingLine || leadingLine || tripleAtEnd
  let onFirstLine : Bool := single && cs.head?.any isIndent
  let opening := if (severalLines && !onFirstLine) || leadingLine then "\n" else ""
  let closing := if severalLines || trailingLine then "\n" else ""
  "\"\"\"" ++ opening ++ String.ofList escaped ++ closing ++ "\"\"\""

/-- What has been seen of a text that may be written as a block. -/
structure BlockScan where
  emptyLine : Bool := true
  indented : Bool := false
  commonIndent : Bool := true
  seenLine : Bool := false
  printable : Bool := true

/-- Looks at one more character. -/
def BlockScan.step (s : BlockScan) (c : Char) : BlockScan :=
  if c = '\n' then
    { s with
      printable := s.printable && !(s.emptyLine && !s.seenLine), seenLine := true, emptyLine := true,
      indented := false }
  else if isIndent c then { s with indented := s.indented || s.emptyLine }
  else if c.toNat ≤ 0x0F then { s with printable := false }
  else { s with commonIndent := s.commonIndent && s.indented, emptyLine := false }

/-- Whether a text reads back unchanged from a block: it has no empty line at either end, no common indentation
and no control characters. -/
def fitsBlock (s : String) : Bool :=
  let r := s.toList.foldl BlockScan.step {}
  s.isEmpty || (r.printable && !r.emptyLine && !(r.commonIndent && r.seenLine))

/-- A text as a literal: between triple quotes if it reads back from them. -/
def textLiteral (s : String) (block : Bool) : String := if block then blockText s else quotedText s

/-! ### Reading -/

/-- How many spaces and tabs a line begins with. -/
def indentOf (line : List Char) : Nat := (line.takeWhile isIndent).length

/-- A line of nothing but spaces and tabs. -/
def isBlankLine (line : List Char) : Bool := line.all isIndent

/-- The least indentation of the lines after the first that are not blank. -/
def commonIndent (lines : List (List Char)) : Option Nat :=
  (((lines.drop 1).filter (!isBlankLine ·)).map indentOf).min?

/-- Takes the common indentation from all lines but the first, and the blank lines from both ends. -/
def dedent (lines : List (List Char)) : List (List Char) :=
  let shifted := match lines with
    | [] => []
    | l :: ls => l :: ls.map (List.drop ((commonIndent lines).getD 0))
  ((shifted.dropWhile isBlankLine).reverse.dropWhile isBlankLine).reverse

end ThriftGateway.Request
