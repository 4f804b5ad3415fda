import ThriftGateway.Number.Integer
import ThriftGateway.Text.Ascii
import ThriftGateway.Text.Half
import ThriftGateway.Value.Basic

/-!
# Values written as JSON

`Value.ofJson` reads a value from a JSON text.  Beside what JSON has, `NaN`, `Infinity` and `-Infinity` are numbers.
A number without a point and an exponent is an integer of any size, up to `Number.digitLimit` digits.  Of several
entries with one key the last counts.  A half of a character without the other half is read as its stand-in.
-/

namespace ThriftGateway.Value

open Number (Double)
open Text (StandIns hexNumber? isDigit isHexDigit isHighHalf isLowHalf joinHalves)

/-- Why a text gives no value. -/
inductive JsonError where
  /-- The text is not JSON. -/
  | malformed
  /-- An integer has too many digits. -/
  | integerTooLong
  deriving DecidableEq, Repr

/-- The words for an error. -/
def JsonError.message : JsonError → String
  | malformed => "The text is not JSON"
  | integerTooLong => "An integer has more than " ++ toString Number.digitLimit ++ " digits"

/-- White space between the pieces of a JSON text. -/
def isJsonBlank (c : Char) : Bool := c = ' ' || c = '\t' || c = '\n' || c = '\r'

/-- The text from its first piece on. -/
def skipJsonBlanks (cs : List Char) : List Char := cs.dropWhile isJsonBlank

/-! ### Texts -/

/-- The character of a short escape. -/
def jsonEscape? (c : Char) : Option Char :=
  if c = '"' ∨ c = '\\' ∨ c = '/' then some c
  else if c = 'b' then some '\x08'
  else if c = 'f' then some '\x0c'
  else if c = 'n' then some '\n'
  else if c = 'r' then some '\r'
  else if c = 't' then some '\t'
  else none

/-- The numbers that the characters of a text have, up to its closing quote, and what follows it.  A character
beyond the first plane may be written as two escapes, and is two numbers then. -/
def jsonUnits : List Char → Except JsonError (List Nat × List Char)
  | '"' :: cs => .ok ([], cs)
  | '\\' :: 'u' :: a :: b :: c :: d :: cs =>
    match if [a, b, c, d].all isHexDigit then hexNumber? [a, b, c, d] else none with
    | some n => do
      let (ns, rest) ← jsonUnits cs
      return (n :: ns, rest)
    | none => .error .malformed
  | '\\' :: c :: cs =>
    match jsonEscape? c with
    | some e => do
      let (ns, rest) ← jsonUnits cs
      return (e.toNat :: ns, rest)
    | none => .error .malformed
  | c :: cs =>
    if c.toNat < 0x20 then .error .malformed
    else do
      let (ns, rest) ← jsonUnits cs
      return (c.toNat :: ns, rest)
  | [] => .error .malformed

/-- The characters with the given numbers, with stand-ins for halves without the other half. -/
def charactersOf (halves : StandIns) : List Nat → List Char
  | [] => []
  | n :: ns =>
    if isHighHalf n then
      match ns with
      | m :: ns' =>
        if isLowHalf m then joinHalves n m :: charactersOf halves ns' else halves.of n :: charactersOf halves (m :: ns')
      | [] => [halves.of n]
    else (if isLowHalf n then halves.of n else Char.ofNat n) :: charactersOf halves ns

/-- The character that two escapes at the front of a text write. -/
def jsonPair? : List Char → Option Char
  | '\\' :: 'u' :: a :: b :: c :: d :: '\\' :: 'u' :: e :: f :: g :: h :: _ => do
    let n ← hexNumber? [a, b, c, d]
    let m ← hexNumber? [e, f, g, h]
    if isHighHalf n && isLowHalf m then return joinHalves n m else none
  | _ => none

/-- The characters of a JSON text and those that two escapes in it write: these are all the characters beyond the
first plane that its texts can have. -/
def jsonCharacters : List Char → List Char
  | [] => []
  | c :: cs => (jsonPair? (c :: cs)).toList ++ c :: jsonCharacters cs

/-- A text after its opening quote. -/
def jsonText (halves : StandIns) (cs : List Char) : Except JsonError (String × List Char) := do
  let (ns, rest) ← jsonUnits cs
  return (String.ofList (charactersOf halves ns), rest)

/-! ### Numbers -/

/-- A minus sign, if there is one. -/
def jsonSign : List Char → List Char × List Char
  | '-' :: cs => (['-'], cs)
  | cs => ([], cs)

/-- Digits before the point: a single zero, or digits that do not begin with one. -/
def jsonWhole : List Char → List Char × List Char
  | '0' :: cs => (['0'], cs)
  | cs => (cs.takeWhile isDigit, cs.dropWhile isDigit)

/-- A point and digits, if both are there. -/
def jsonFraction : List Char → List Char × List Char
  | '.' :: cs => if cs.head?.any isDigit then ('.' :: cs.takeWhile isDigit, cs.dropWhile isDigit) else ([], '.' :: cs)
  | cs => ([], cs)

/-- The letter `e`, a sign if there is one, and digits, if they are there. -/
def jsonExponent : List Char → List Char × List Char
  | [] => ([], [])
  | e :: cs =>
    let (sign, ds) := match cs with
      | '+' :: ds => (['+'], ds)
      | '-' :: ds => (['-'], ds)
      | ds => ([], ds)
    if (e = 'e' ∨ e = 'E') ∧ ds.head?.any isDigit then
      (e :: sign ++ ds.takeWhile isDigit, ds.dropWhile isDigit)
    else ([], e :: cs)

/-- The number at the front of a text, and what follows it. -/
def jsonNumber (cs : List Char) : Except JsonError (Value × List Char) :=
  let (sign, afterSign) := jsonSign cs
  let (whole, afterWhole) := jsonWhole afterSign
  let (fraction, afterFraction) := jsonFraction afterWhole
  let (exponent, rest) := jsonExponent afterFraction
  if whole.isEmpty then .error .malformed
  else if fraction.isEmpty ∧ exponent.isEmpty then
    match Number.readInt? 10 (String.ofList (sign ++ whole)) with
    | some n => .ok (.int n, rest)
    | none => .error .integerTooLong
  else
    match Number.readDouble? (String.ofList (sign ++ whole ++ fraction ++ exponent)) with
    | some d => .ok (.float d, rest)
    | none => .error .malformed

/-! ### Values -/

/-- The words that stand for values. -/
def jsonWords : List (String × Value) :=
  [("null", .null), ("true", .bool true), ("false", .bool false), ("NaN", .float .nan),
    ("Infinity", .float (.infinite false)), ("-Infinity", .float (.infinite true))]

/-- The word at the front of a text, or else the number, and what follows it. -/
def jsonScalar (cs : List Char) : Except JsonError (Value × List Char) :=
  match jsonWords.find? fun w => w.1.toList.isPrefixOf cs with
  | some (word, v) => .ok (v, cs.drop word.length)
  | none => jsonNumber cs

mutual
/-- The value at the front of a text, and what follows it. -/
def jsonValue (halves : StandIns) : (fuel : Nat) → List Char → Except JsonError (Value × List Char)
  | 0, _ => .error .malformed
  | fuel + 1, cs =>
    match cs with
    | '"' :: cs => do
      let (s, rest) ← jsonText halves cs
      return (.text s, rest)
    | '[' :: cs =>
      match skipJsonBlanks cs with
      | ']' :: rest => .ok (.list [], rest)
      | cs => do
        let (items, rest) ← jsonItems halves fuel cs
        return (.list items, rest)
    | '\x7b' :: cs =>
      match skipJsonBlanks cs with
      | '\x7d' :: rest => .ok (.map [], rest)
      | cs => do
        let (entries, rest) ← jsonEntries halves fuel cs
        return (ofEntries entries, rest)
    | cs => jsonScalar cs

/-- The items of a list, at least one, up to its closing bracket. -/
def jsonItems (halves : StandIns) : (fuel : Nat) → List Char → Except JsonError (List Value × List Char)
  | 0, _ => .error .malformed
  | fuel + 1, cs => do
    let (v, rest) ← jsonValue halves fuel cs
    match skipJsonBlanks rest with
    | ']' :: rest => return ([v], rest)
    | ',' :: rest =>
      let (vs, rest) ← jsonItems halves fuel (skipJsonBlanks rest)
      return (v :: vs, rest)
    | _ => throw .malformed

/-- The entries of a map, at least one, up to its closing brace. -/
def jsonEntries (halves : StandIns) : (fuel : Nat) → List Char → Except JsonError (List (Value × Value) × List Char)
  | 0, _ => .error .malformed
  | fuel + 1, cs =>
    match cs with
    | '"' :: cs => do
      let (key, rest) ← jsonText halves cs
      match skipJsonBlanks rest with
      | ':' :: rest =>
        let (v, rest) ← jsonValue halves fuel (skipJsonBlanks rest)
        match skipJsonBlanks rest with
        | '\x7d' :: rest => return ([(.text key, v)], rest)
        | ',' :: rest =>
          let (es, rest) ← jsonEntries halves fuel (skipJsonBlanks rest)
          return ((.text key, v) :: es, rest)
        | _ => throw .malformed
      | _ => throw .malformed
    | _ => .error .malformed
end

/-- The value that a JSON text stands for.  Every two steps of reading take at least one character, so twice the
text's length is enough fuel. -/
def ofJson (halves : StandIns) (cs : List Char) : Except JsonError Value := do
  let (v, rest) ← jsonValue halves (2 * cs.length + 2) (skipJsonBlanks cs)
  if (skipJsonBlanks rest).isEmpty then return v else throw .malformed

end ThriftGateway.Value
