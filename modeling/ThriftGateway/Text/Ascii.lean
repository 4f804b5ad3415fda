/-!
# Digits and names

The digits of base 10 and base 16, and the characters of names.  None of them is beyond ASCII.
-/

namespace ThriftGateway.Text

/-- A decimal digit. -/
def isDigit (c : Char) : Bool := '0' ≤ c && c ≤ '9'

/-- A character that a name can begin with. -/
def isNameStart (c : Char) : Bool := c = '_' || ('a' ≤ c && c ≤ 'z') || ('A' ≤ c && c ≤ 'Z')

/-- A character that a name can go on with. -/
def isNamePart (c : Char) : Bool := isNameStart c || isDigit c

/-- The value of a digit in base 16. -/
def hexDigit? (c : Char) : Option Nat :=
  if isDigit c then some (c.toNat - 48)
  else if 'a' ≤ c ∧ c ≤ 'f' then some (c.toNat - 87)
  else if 'A' ≤ c ∧ c ≤ 'F' then some (c.toNat - 55)
  else none

/-- A digit in base 16. -/
def isHexDigit (c : Char) : Bool := (hexDigit? c).isSome

/-- The number that digits in base 16 stand for. -/
def hexNumber? (cs : List Char) : Option Nat :=
  cs.foldl (fun n c => n.bind fun n => (hexDigit? c).map (n * 16 + ·)) (some 0)

end ThriftGateway.Text
