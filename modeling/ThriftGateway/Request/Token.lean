import ThriftGateway.Request.TextLiteral
import ThriftGateway.Text.Ascii

/-!
# Tokens of requests

A request is cut into marks, names, numbers and texts.  Blanks, commas and comments separate tokens and mean
nothing.  `firstToken` cuts one token from the front of a text: what stands behind it is not looked at before its
turn comes.
-/

namespace ThriftGateway.Request

open Text (isDigit isNameStart isNamePart hexNumber?)

/-- A token, by what it says. -/
inductive Token where
  | mark (text : String)
  | name (s : String)
  | int (digits : String)
  | float (text : String)
  | text (value : String)
  | block (value : String)
  deriving DecidableEq, Repr

/-- Words that are quoted in messages. -/
def inApostrophes (s : String) : String := "'" ++ s ++ "'"

/-- A kind of token with what the token says, if it says anything. -/
def withContent (kind content : String) : String :=
  if content.isEmpty then kind else kind ++ " " ++ inApostrophes content

/-- How messages describe a token, or the end of the request. -/
def Token.describe : Option Token → String
  | none => "<EOF>"
  | some (.mark s) => inApostrophes s
  | some (.name s) => withContent "Name" s
  | some (.int s) => withContent "Int" s
  | some (.float s) => withContent "Float" s
  | some (.text s) => withContent "String" s
  | some (.block s) => withContent "BlockString" s

/-- Why a text is no request. -/
inductive SyntaxError where
  | strayQuote
  | unexpectedCharacter (c : Char)
  /-- Two dots where only three mean something. -/
  | twoDots
  /-- A number that begins with its point; `digits` stand behind the point. -/
  | nothingBeforePoint (digits : String)
  | digitAfterZero (c : Char)
  | digitExpected (found : Option Char)
  | unterminatedText
  | badEscape (written : String)
  | badCodePoint (written : String)
  /-- The request ends within an escape. -/
  | escapeCutShort
  | expected (what : String) (found : Option Token)
  | unexpected (found : Option Token)
  | variableInConstant (name : String)
  /-- A description before a selection without `query`. -/
  | describedSelection
  /-- A description before something that has none. -/
  | strayDescription
  | tooDeep
  deriving DecidableEq, Repr

/-- How messages show a character, or the end of the request. -/
def showCharacter : Option Char → String
  | none => "<EOF>"
  | some c =>
    if c = '"' then "'\"'"
    else if ' ' ≤ c ∧ c ≤ '~' then inApostrophes c.toString
    else
      let n := c.toNat
      let width := if n < 0x10000 then 4 else if n < 0x100000 then 5 else 6
      "U+" ++ String.ofList ((Text.hexPadded width n).map Char.toUpper)

/-- The words for an error. -/
def SyntaxError.message (e : SyntaxError) : String :=
  "Syntax Error: " ++ match e with
  | strayQuote => "Unexpected single quote character ('), did you mean to use a double quote (\")?"
  | unexpectedCharacter c => "Unexpected character: " ++ showCharacter (some c) ++ "."
  | twoDots => "Unexpected '..', did you mean '...'?"
  | nothingBeforePoint ds => "Invalid number, expected digit before '.', did you mean '0." ++ ds ++ "'?"
  | digitAfterZero c => "Invalid number, unexpected digit after 0: " ++ showCharacter (some c) ++ "."
  | digitExpected c => "Invalid number, expected digit but got: " ++ showCharacter c ++ "."
  | unterminatedText => "Unterminated string."
  | badEscape s => "Invalid character escape sequence: '" ++ s ++ "'."
  | badCodePoint s => "Invalid Unicode escape sequence: '" ++ s ++ "'."
  | escapeCutShort => "string index out of range"
  | expected what found => "Expected " ++ what ++ ", found " ++ Token.describe found ++ "."
  | unexpected found => "Unexpected " ++ Token.describe found ++ "."
  | variableInConstant name => "Unexpected variable '$" ++ name ++ "' in constant value."
  | describedSelection => "Unexpected description, descriptions are not supported on shorthand queries."
  | strayDescription => "Unexpected description, only GraphQL definitions support descriptions."
  | tooDeep => "Document is nested too deeply. Parsing aborted."

/-- What a cut gives is a piece of the text and the rest of it. -/
abbrev Cut := Except SyntaxError

/-! ### Numbers -/

/-- Digits, at least one. -/
def cutDigits (cs : List Char) : Cut (List Char × List Char) :=
  if cs.head?.any isDigit then .ok (cs.takeWhile isDigit, cs.dropWhile isDigit) else .error (.digitExpected cs.head?)

/-- The digits before the point: a single zero, or digits. -/
def cutWhole : List Char → Cut (List Char × List Char)
  | '0' :: c :: cs => if isDigit c then .error (.digitAfterZero c) else .ok (['0'], c :: cs)
  | cs => cutDigits cs

/-- A point and digits, if there is a point. -/
def cutFraction : List Char → Cut (List Char × List Char)
  | '.' :: cs => do
    let (ds, rest) ← cutDigits cs
    return ('.' :: ds, rest)
  | cs => .ok ([], cs)

/-- An exponent, if there is one. -/
def cutExponent : List Char → Cut (List Char × List Char)
  | [] => .ok ([], [])
  | e :: cs =>
    if e = 'e' ∨ e = 'E' then do
      let (sign, cs) := match cs with
        | '-' :: cs => (['-'], cs)
        | '+' :: cs => (['+'], cs)
        | cs => ([], cs)
      let (ds, rest) ← cutDigits cs
      return (e :: sign ++ ds, rest)
    else .ok ([], e :: cs)

/-- A number.  It must not touch a point or a name. -/
def cutNumber (cs : List Char) : Cut (Token × List Char) := do
  let (sign, cs) := match cs with
    | '-' :: cs => (['-'], cs)
    | cs => ([], cs)
  let (whole, cs) ← cutWhole cs
  let (fraction, cs) ← cutFraction cs
  let (exponent, cs) ← cutExponent cs
  if cs.head?.any fun c => c = '.' || isNameStart c then throw (.digitExpected cs.head?)
  let text := String.ofList (sign ++ whole ++ fraction ++ exponent)
  return (if fraction.isEmpty && exponent.isEmpty then .int text else .float text, cs)

/-! ### Texts -/

/-- The character with a number, if there is one. -/
def character? (n : Nat) : Option Char := if n.isValidChar then some (Char.ofNat n) else none

/-- The four digits of an escape, as a number. -/
def fourDigits? (cs : List Char) : Option Nat := if 4 ≤ cs.length then hexNumber? (cs.take 4) else none

/-- What is looked at of an escape with digits in braces, behind its opening brace: all up to the first character
that is no digit, and nine characters at most. -/
def bracedPart (cs : List Char) : List Char :=
  let cs := cs.take 9
  let ds := cs.takeWhile Text.isHexDigit
  ds ++ (cs.drop ds.length).take 1

/-- The character of an escape with digits in braces. -/
def bracedEscape? (part : List Char) : Option Char :=
  if 2 ≤ part.length ∧ part.getLast? = some '\x7d' then (hexNumber? part.dropLast).bind character? else none

/-- The character of an escape with four digits, or with two times four digits for one beyond the first plane,
and what follows it. -/
def fixedEscape? (cs : List Char) : Option (Char × List Char) :=
  match fourDigits? cs with
  | none => none
  | some n =>
    match character? n, cs.drop 4 with
    | some c, rest => some (c, rest)
    | none, '\\' :: 'u' :: rest =>
      if n < 0xDC00 then
        match fourDigits? rest with
        | some m =>
          if 0xDC00 ≤ m ∧ m < 0xE000 then
            (character? (0x10000 + (n - 0xD800) * 0x400 + (m - 0xDC00))).map fun c => (c, rest.drop 4)
          else none
        | none => none
      else none
    | none, _ => none

/-- Whether the request ends before the digits of an escape, or before those of the second half of a character
beyond the first plane. -/
def isCutShort (cs : List Char) : Bool :=
  match cs.drop 4 with
  | '\\' :: 'u' :: rest => rest.length < 4 && (fourDigits? cs).any fun n => 0xD800 ≤ n && n < 0xDC00
  | _ => cs.length < 4

/-- The character of a short escape. -/
def shortEscape? (c : Char) : Option Char :=
  if c = '"' ∨ c = '\\' ∨ c = '/' then some c
  else if c = 'b' then some '\x08'
  else if c = 'f' then some '\x0c'
  else if c = 'n' then some '\n'
  else if c = 'r' then some '\r'
  else if c = 't' then some '\t'
  else none

/-- The character that an escape after its backslash stands for, and what follows it. -/
def cutEscape : List Char → Cut (Char × List Char)
  | 'u' :: '\x7b' :: cs =>
    let part := bracedPart cs
    match bracedEscape? part with
    | some c => .ok (c, cs.drop part.length)
    | none => .error (.badCodePoint (String.ofList ('\\' :: 'u' :: '\x7b' :: part)))
  | 'u' :: cs =>
    if isCutShort cs then .error .escapeCutShort
    else
      match fixedEscape? cs with
      | some r => .ok r
      | none => .error (.badCodePoint (String.ofList ('\\' :: 'u' :: cs.take 4)))
  | c :: cs =>
    match shortEscape? c with
    | some r => .ok (r, cs)
    | none => .error (.badEscape (String.ofList ['\\', c]))
  | [] => .error .escapeCutShort

/-- The rest of a text up to its closing quote; `fuel` is more than its length. -/
def cutText : (fuel : Nat) → List Char → Cut (List Char × List Char)
  | 0, _ => .error .unterminatedText
  | _ + 1, [] => .error .unterminatedText
  | fuel + 1, c :: cs =>
    if c = '"' then .ok ([], cs)
    else if c = '\n' ∨ c = '\r' then .error .unterminatedText
    else do
      let (d, rest) ← if c = '\\' then cutEscape cs else .ok (c, cs)
      let (ds, rest) ← cutText fuel rest
      return (d :: ds, rest)

/-- The lines of the rest of a block text up to its closing quotes. -/
def cutBlock : List Char → Cut (List (List Char) × List Char)
  | '"' :: '"' :: '"' :: cs => .ok ([[]], cs)
  | '\\' :: '"' :: '"' :: '"' :: cs => do
    let (lines, rest) ← cutBlock cs
    return (("\"\"\"".toList ++ lines.headD []) :: lines.tail, rest)
  | '\r' :: '\n' :: cs => do
    let (lines, rest) ← cutBlock cs
    return ([] :: lines, rest)
  | c :: cs => do
    let (lines, rest) ← cutBlock cs
    return (if c = '\n' ∨ c = '\r' then [] :: lines else (c :: lines.headD []) :: lines.tail, rest)
  | [] => .error .unterminatedText

/-! ### Tokens -/

/-- The marks that are single characters. -/
def isMark (c : Char) : Bool :=
  ['!', '$', '&', '(', ')', ':', '=', '@', '[', ']', '\x7b', '|', '\x7d'].contains c

/-- A character that separates tokens. -/
def isSeparator (c : Char) : Bool := c = '\uFEFF' || c = '\t' || c = ' ' || c = ',' || c = '\n' || c = '\r'

/-- The token at the front of a text that does not begin with a separator. -/
def cutToken (cs : List Char) : Cut (Token × List Char) :=
  match cs with
  | [] => .error (.unexpected none)
  | '.' :: '.' :: '.' :: rest => .ok (.mark "...", rest)
  | '.' :: '.' :: _ => .error .twoDots
  | '"' :: '"' :: '"' :: rest => do
    let (lines, rest) ← cutBlock rest
    return (.block (String.ofList (['\n'].intercalate (dedent lines))), rest)
  | '"' :: rest => do
    let (ds, rest) ← cutText (rest.length + 1) rest
    return (.text (String.ofList ds), rest)
  | c :: rest =>
    if isMark c then .ok (.mark c.toString, rest)
    else if isDigit c ∨ c = '-' then cutNumber cs
    else if isNameStart c then .ok (.name (String.ofList (cs.takeWhile isNamePart)), cs.dropWhile isNamePart)
    else if c = '.' ∧ rest.head?.any isDigit then
      .error (.nothingBeforePoint (String.ofList (rest.takeWhile isDigit)))
    else if c = '\'' then .error .strayQuote
    else .error (.unexpectedCharacter c)

/-- Leaves out the separators and comments at the front of a text that may begin within a comment. -/
def skipSeparators : (inComment : Bool) → List Char → List Char
  | _, [] => []
  | true, c :: cs => skipSeparators (c ≠ '\n' && c ≠ '\r') cs
  | false, c :: cs =>
    if isSeparator c then skipSeparators false cs
    else if c = '#' then skipSeparators true cs
    else c :: cs

/-- The first token of a text, if there is one, and what follows it. -/
def firstToken (cs : List Char) : Cut (Option Token × List Char) :=
  match skipSeparators false cs with
  | [] => .ok (none, [])
  | c :: cs => (cutToken (c :: cs)).map fun (t, rest) => (some t, rest)

end ThriftGateway.Request
