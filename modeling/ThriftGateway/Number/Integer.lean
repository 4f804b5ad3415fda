import ThriftGateway.Text.Blank
import ThriftGateway.Text.DecimalDigit
import ThriftGateway.Text.Quoted

/-!
# Reading integers

An integer text is, between spaces, an optional sign and digits of any script, with at most one underscore
between two digits.  In base 16 the letters `a` to `f` are digits too and `0x` may stand before the digits.  A
decimal text with more than `digitLimit` digits is not read.
-/

namespace ThriftGateway.Number

open Text (digitValue? trimBy)

/-- The most digits that a decimal text may have. -/
def digitLimit : Nat := 4300

/-- Why a text stands for no number, or a number has no text. -/
inductive NumeralError where
  | tooManyDigits (count : Nat)
  /-- The number would need more digits than a text may have. -/
  | tooLongToWrite
  | notInteger (base : Nat) (text : String)
  | notDouble (text : String)
  deriving DecidableEq, Repr

/-- The most characters of a quoted text that a message about an integer shows. -/
def shownLength : Nat := 200

/-- The words for an error. -/
def NumeralError.message : NumeralError → String
  | tooManyDigits count =>
    s!"Exceeds the limit ({digitLimit} digits) for integer string conversion: value has {count} digits" ++
      "; use sys.set_int_max_str_digits() to increase the limit"
  | tooLongToWrite =>
    s!"Exceeds the limit ({digitLimit} digits) for integer string conversion" ++
      "; use sys.set_int_max_str_digits() to increase the limit"
  | notInteger base text =>
    s!"invalid literal for int() with base {base}: " ++ String.ofList ((Text.quoted text).toList.take shownLength)
  | notDouble text => "could not convert string to float: " ++ Text.quoted text

/-- A space that may stand at the ends of a number. -/
def isSpace (c : Char) : Bool := c = ' ' || ('\t' ≤ c && c ≤ '\r')

/-- A character in ASCII: digits of all scripts become digits, white space beyond ASCII becomes a space, and what
can be neither becomes a question mark. -/
def inAscii (c : Char) : Char :=
  if c.toNat < 127 then c
  else if Text.isWhite c then ' '
  else (digitValue? c).elim '?' fun d => Char.ofNat (48 + d)

/-- A text of a number in ASCII, without the spaces at its ends. -/
def bareNumeral (text : String) : List Char := trimBy isSpace (text.toList.map inAscii)

/-- The value of a digit in bases up to 16. -/
def digitIn? (base : Nat) (c : Char) : Option Nat :=
  let letter : Option Nat :=
    if 'a' ≤ c ∧ c ≤ 'f' then some (c.toNat - 87)
    else if 'A' ≤ c ∧ c ≤ 'F' then some (c.toNat - 55)
    else none
  (digitValue? c).or (if base = 16 then letter else none)

/-- Digits with single underscores between them; at least one digit. -/
def digits? (base : Nat) : List Char → Option (List Nat)
  | [] => none
  | [c] => (digitIn? base c).map fun d => [d]
  | c :: '_' :: cs =>
    match digitIn? base c with
    | none => none
    | some d => (digits? base cs).map (d :: ·)
  | c :: c' :: cs =>
    match digitIn? base c with
    | none => none
    | some d => (digits? base (c' :: cs)).map (d :: ·)

/-- The powers of two. -/
def twoTo (n : Nat) : Nat := Nat.pow 2 n

/-- The powers of ten. -/
def tenTo (n : Nat) : Nat := Nat.pow 10 n

/-- The number with the given digits. -/
def ofDigits (base : Nat) (ds : List Nat) : Nat := ds.foldl (fun n d => n * base + d) 0

/-- Whether a text begins with a minus sign, and what follows its sign. -/
def splitSign : List Char → Bool × List Char
  | '-' :: cs => (true, cs)
  | '+' :: cs => (false, cs)
  | cs => (false, cs)

/-- Leaves out `0x` and an underscore after it. -/
def dropBaseMark : List Char → List Char
  | '0' :: x :: cs =>
    if x = 'x' ∨ x = 'X' then
      match cs with
      | '_' :: cs => cs
      | cs => cs
    else '0' :: x :: cs
  | cs => cs

/-- The integer that a text stands for in base 10 or 16. -/
def readInt (base : Nat) (text : String) : Except NumeralError Int :=
  let (negative, cs) := splitSign (bareNumeral text)
  let cs := if base = 16 then dropBaseMark cs else cs
  let inRun (c : Char) : Bool := c = '_' || (digitIn? base c).isSome
  match digits? base (cs.takeWhile inRun) with
  | none => .error (.notInteger base text)
  | some ds =>
    if base = 10 ∧ digitLimit < ds.length then .error (.tooManyDigits ds.length)
    else if !(cs.dropWhile inRun).isEmpty then .error (.notInteger base text)
    else
      let n : Int := ofDigits base ds
      .ok (if negative then -n else n)

/-- The integer that a text stands for, if it stands for one. -/
def readInt? (base : Nat) (text : String) : Option Int := (readInt base text).toOption

/-- The decimal text of an integer. -/
def decimal (n : Int) : String := toString n

/-- Whether the decimal text of an integer has so few digits that it may be written. -/
def isWritable (n : Int) : Bool := n.natAbs < tenTo digitLimit

end ThriftGateway.Number
