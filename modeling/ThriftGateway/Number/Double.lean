import ThriftGateway.Number.Integer

/-!
# Binary floating point numbers

Numbers of 64 bits as exact values: a sign, a whole mantissa below `2 ^ 53` and an exponent of two, or infinity,
or no number.  Reading and rounding are exact: `Double.ofRatio` gives the nearest number to a quotient, and of
two nearest ones the one with an even mantissa.
-/

namespace ThriftGateway.Number

/-- A number of 64 bits. -/
inductive Double where
  /-- The mantissa times two to the exponent.  The mantissa has 53 bits, unless the exponent is the least. -/
  | finite (negative : Bool) (mantissa : Nat) (exponent : Int)
  | infinite (negative : Bool)
  | nan
  deriving DecidableEq, Repr

namespace Double

/-- The least exponent. -/
def leastExponent : Int := -1074

/-- The greatest exponent. -/
def greatestExponent : Int := 971

/-- `num / den` rounded to a whole number, a half to the even neighbour. -/
def roundEven (num den : Nat) : Nat :=
  let q := num / den
  let r := num % den
  if 2 * r < den then q else if den < 2 * r then q + 1 else if q % 2 = 0 then q else q + 1

/-- `num / den` in units of `2 ^ e`, rounded. -/
def inUnits (num den : Nat) (e : Int) : Nat :=
  if 0 ≤ e then roundEven num (den * twoTo e.toNat) else roundEven (num * twoTo (-e).toNat) den

/-- The exponent at which `num / den` has 53 bits before its point, if it is not below the least one. -/
def exponentFor (num den : Nat) : Int :=
  let guess : Int := (num.log2 : Int) - den.log2 - 52
  -- the quotient has `guess` or one less as the place of its lowest bit
  let tooBig : Bool :=
    if 0 ≤ guess then num < den * twoTo (guess.toNat + 52)
    else num * twoTo (-guess).toNat < den * twoTo 52
  max (if tooBig then guess - 1 else guess) leastExponent

/-- The number nearest to `num / den`. -/
def ofRatio (negative : Bool) (num den : Nat) : Double :=
  if num = 0 then .finite negative 0 leastExponent
  else
    let e := exponentFor num den
    let m := inUnits num den e
    let (m, e) := if m = twoTo 53 then (twoTo 52, e + 1) else (m, e)
    if greatestExponent < e then .infinite negative else .finite negative m e

/-- The number nearest to an integer. -/
def ofInt (n : Int) : Double := ofRatio (n < 0) n.natAbs 1

/-- The number nearest to `digits * 10 ^ exponent`.  Exponents far out of range are decided by size alone. -/
def ofDecimal (negative : Bool) (digits : Nat) (exponent : Int) : Double :=
  let size : Int := (digits.log2 : Int) / 3 + 1
  if digits = 0 then .finite negative 0 leastExponent
  else if 400 < exponent then .infinite negative
  else if exponent + size < -400 then .finite negative 0 leastExponent
  else if 0 ≤ exponent then ofRatio negative (digits * tenTo exponent.toNat) 1
  else ofRatio negative digits (tenTo (-exponent).toNat)

/-- Neither infinite nor no number. -/
def isFinite : Double → Bool
  | finite .. => true
  | _ => false

/-- The number rounded toward zero to an integer. -/
def truncated? : Double → Option Int
  | finite negative m e =>
    let n : Int := if 0 ≤ e then m * twoTo e.toNat else m / twoTo (-e).toNat
    some (if negative then -n else n)
  | _ => none

/-- The integer that the number is exactly, if it is one. -/
def integer? : Double → Option Int
  | finite negative m e =>
    if e < 0 ∧ m % twoTo (-e).toNat ≠ 0 then none else (finite negative m e).truncated?
  | _ => none

/-- Zero of either sign. -/
def isZero : Double → Bool
  | finite _ 0 _ => true
  | _ => false

/-- Equality of values: zeros are equal and `nan` equals nothing. -/
def same (a b : Double) : Bool :=
  match a, b with
  | nan, _ => false
  | _, nan => false
  | a, b => a = b || (a.isZero && b.isZero)

end Double

/-! ### Reading -/

/-- Digits with single underscores between them at the front of a text, and what follows them. -/
def digitRun : List Char → List Nat × List Char
  | [] => ([], [])
  | c :: cs =>
    match Text.digitValue? c with
    | none => ([], c :: cs)
    | some d =>
      match cs with
      | '_' :: c' :: cs' =>
        if (Text.digitValue? c').isSome then
          let (ds, rest) := digitRun (c' :: cs')
          (d :: ds, rest)
        else ([d], '_' :: c' :: cs')
      | cs => let (ds, rest) := digitRun cs; (d :: ds, rest)

/-- The letters of a text as small letters. -/
def lowered (cs : List Char) : List Char := cs.map Char.toLower

/-- The exponent that a text consists of: nothing at all, or `e` and an integer. -/
def exponent? : List Char → Option Int
  | [] => some 0
  | e :: cs =>
    if e = 'e' ∨ e = 'E' then
      let (negative, cs) := splitSign cs
      match digitRun cs with
      | ([], _) => none
      | (ds, []) => let n : Int := ofDigits 10 ds; some (if negative then -n else n)
      | _ => none
    else none

/-- The number that a text stands for: decimal digits with a point and an exponent, or a name of infinity or of
no number, between spaces. -/
def readDouble? (text : String) : Option Double :=
  let (negative, cs) := splitSign (bareNumeral text)
  let word := String.ofList (lowered cs)
  if word = "inf" ∨ word = "infinity" then some (.infinite negative)
  else if word = "nan" then some .nan
  else
    let (whole, rest) := digitRun cs
    let (fraction, rest) := match rest with
      | '.' :: cs => digitRun cs
      | cs => ([], cs)
    if whole.isEmpty ∧ fraction.isEmpty then none
    else (exponent? rest).map fun e =>
      .ofDecimal negative (ofDigits 10 (whole ++ fraction)) (e - fraction.length)

/-- The number that a text stands for, or why it stands for none. -/
def readDouble (text : String) : Except NumeralError Double :=
  match readDouble? text with
  | some d => .ok d
  | none => .error (.notDouble text)

end ThriftGateway.Number
