import ThriftGateway.Text.Half
import ThriftGateway.Text.Printable

/-!
# Quoted texts

How messages quote a text: in single quotes, or in double quotes if it has single quotes and no double ones,
with the quote, backslashes and characters that cannot be printed written as escapes.
-/

namespace ThriftGateway.Text

/-- A digit of a number written in base 16. -/
def hexDigit (n : Nat) : Char := if n < 10 then Char.ofNat (48 + n) else Char.ofNat (87 + n)

/-- The last `width` digits of a number in base 16, small letters. -/
def hexPadded : (width : Nat) → Nat → List Char
  | 0, _ => []
  | w + 1, n => hexPadded w (n / 16) ++ [hexDigit (n % 16)]

/-- The escape of a character, or of half a character, by its number. -/
def escaped (n : Nat) : List Char :=
  if n < 0x100 then '\\' :: 'x' :: hexPadded 2 n
  else if n < 0x10000 then '\\' :: 'u' :: hexPadded 4 n
  else '\\' :: 'U' :: hexPadded 8 n

/-- A text with the escapes of halves in place of what stands for them. -/
def escapeHalves (halves : StandIns) (s : String) : String :=
  String.ofList (s.toList.flatMap fun c => (halves.half? c).elim [c] escaped)

/-- A character inside quotes `q`. -/
def quoteChar (halves : StandIns) (q c : Char) : List Char :=
  if c = q ∨ c = '\\' then ['\\', c]
  else if c = '\n' then ['\\', 'n']
  else if c = '\r' then ['\\', 'r']
  else if c = '\t' then ['\\', 't']
  else if isPrintable c then [c]
  else escaped (halves.number c)

/-- The quote to write a text in. -/
def quoteOf (cs : List Char) : Char := if cs.contains '\'' && !cs.contains '"' then '"' else '\''

/-- A text in quotes. -/
def quoted (s : String) (halves : StandIns := {}) : String :=
  let cs := s.toList
  let q := quoteOf cs
  String.ofList (q :: cs.flatMap (quoteChar halves q) ++ [q])

end ThriftGateway.Text
