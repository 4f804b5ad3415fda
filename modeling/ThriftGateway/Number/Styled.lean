import ThriftGateway.Number.Shortest
import ThriftGateway.Text.Ascii
import ThriftGateway.Text.Style

/-!
# Numbers in styles

The texts of integers and floating point numbers in a style.  Floating point numbers are rounded exactly, a half to
the even neighbour: to places behind the point, or to a number of digits.
-/

namespace ThriftGateway.Number

open Text (Style StyleFault fillOf)

/-! ### Groups of digits -/

/-- Digits in groups of a size, the last digit and the last group first; zeros in front of them fill the width, in
which a separator stands behind every group but the last.  `fuel` is more than the number of digits and the width
together. -/
def groupsFrom (size : Nat) : (fuel : Nat) → (digits : List Char) → (width : Nat) → List (List Char)
  | 0, ds, _ => [ds]
  | fuel + 1, ds, width =>
    let n := min size (max (max ds.length width) 1)
    let group := ds.take n ++ fillOf '0' (n - ds.length)
    let rest := ds.drop n
    if rest.isEmpty && width ≤ n then [group] else group :: groupsFrom size fuel rest (width - n - 1)

/-- Digits with a separator between groups, and zeros in front of them that fill the width. -/
def grouped (size : Nat) (separator : Option Char) (digits : List Char) (width : Nat) : List Char :=
  match separator with
  | none => fillOf '0' (width - digits.length) ++ digits
  | some c => ([c].intercalate (groupsFrom size (digits.length + width + 1) digits.reverse width)).reverse

/-- The sign of a number in a style. -/
def signIn (s : Style) (negative : Bool) : List Char :=
  if negative then ['-']
  else
    match s.sign with
    | some .plus => ['+']
    | some .space => [' ']
    | _ => []

/-- Lays out a number: its mark of the base, the digits before the point, and what follows them. -/
def layOut (s : Style) (groupSize : Nat) (negative : Bool) (mark digits rest : List Char) : String :=
  let head := signIn s negative ++ mark
  let width := if s.fill = '0' ∧ s.alignment = .behindSign then s.width - (head.length + rest.length) else 0
  let digits := if digits.isEmpty then [] else grouped groupSize s.separator digits width
  String.ofList (s.place head (digits ++ rest))

/-! ### Floating point numbers -/

/-- Zeros at the end of digits left out. -/
def withoutZeros (cs : List Char) : List Char := (cs.reverse.dropWhile (· = '0')).reverse

/-- Digits with a point, which is written if digits follow it or if it always is. -/
def withPoint (always : Bool) (whole fraction : List Char) : List Char × List Char :=
  (whole, if fraction.isEmpty && !always then [] else '.' :: fraction)

/-- The digits of `m * 2 ^ q` before the point and the given number of places behind it. -/
def fixedDigits (m : Nat) (q : Int) (places : Nat) : List Char × List Char :=
  let n := Double.roundEven (m * twoTo q.toNat * tenTo places) (twoTo (-q).toNat)
  let ds := (padded (places + 1) n).toList
  (ds.take (ds.length - places), ds.drop (ds.length - places))

/-- The given number of digits of `m * 2 ^ q`, at least one, and the power of ten that the first of them counts. -/
def leadingDigits (m : Nat) (q : Int) (count : Nat) : List Char × Int :=
  if m = 0 then (fillOf '0' count, 0)
  else
    let power := scaleOf m q - 1
    let shift : Int := count - 1 - power
    let n := Double.roundEven (m * twoTo q.toNat * tenTo shift.toNat) (twoTo (-q).toNat * tenTo (-shift).toNat)
    if n = tenTo count then ((toString (tenTo (count - 1))).toList, power + 1) else ((toString n).toList, power)

/-- The text of an exponent, with the letter before it. -/
def exponentText (letter : Char) (e : Int) : List Char :=
  letter :: (if e < 0 then '-' else '+') :: (padded 2 e.natAbs).toList

/-- Digits with the point behind the first one, and an exponent. -/
def exponential (letter : Char) (alwaysPoint : Bool) (digits : List Char) (power : Int) : List Char × List Char :=
  let (whole, rest) := withPoint alwaysPoint (digits.take 1) (digits.drop 1)
  (whole, rest ++ exponentText letter power)

/-- Digits of which the first counts a power of ten, without an exponent. -/
def positional (alwaysPoint : Bool) (digits : List Char) (power : Int) : List Char × List Char :=
  if power < 0 then withPoint alwaysPoint ['0'] (fillOf '0' (-power - 1).toNat ++ digits)
  else
    let n := power.toNat + 1
    withPoint alwaysPoint (digits.take n ++ fillOf '0' (n - digits.length)) (digits.drop n)

/-- A number with at most the given digits and an exponent if the number is small or large: from `10 ^ limit` on.
A whole number without an exponent gets a zero behind its point if `keepsPoint`. -/
def general (letter : Char) (alternate keepsPoint : Bool) (m : Nat) (q : Int) (count : Nat) :
    List Char × List Char :=
  let (ds, power) := leadingDigits m q count
  let shown := if alternate then ds else ds.take 1 ++ withoutZeros (ds.drop 1)
  let limit : Int := if keepsPoint then (count : Int) - 1 else count
  if power < -4 ∨ limit ≤ power then exponential letter alternate shown power
  else
    let (whole, rest) := positional alternate shown power
    (whole, if keepsPoint && rest.length < 2 then ['.', '0'] else rest)

/-- The shortest text of a number, split before its point or exponent. -/
def shortestParts (alternate : Bool) (m : Nat) (q : Int) : List Char × List Char :=
  let cs := (Double.finite false m q).text.toList
  let whole := cs.takeWhile Text.isDigit
  let rest := cs.dropWhile Text.isDigit
  (whole, if alternate && rest.head? = some 'e' then '.' :: rest else rest)

/-- The greatest precision. -/
def greatestPrecision : Nat := 2147483647

/-- A hundred times a number. -/
def hundredfold : Double → Double
  | .finite negative m q => .ofRatio negative (m * 100 * twoTo q.toNat) (twoTo (-q).toNat)
  | d => d

/-- The digits of a finite number in a notation. -/
def notationParts (s : Style) (letter : Option Char) (m : Nat) (q : Int) : List Char × List Char :=
  let places := s.precision.getD 6
  match letter with
  | none =>
    match s.precision with
    | none => shortestParts s.alternate m q
    | some n => general 'e' s.alternate true m q (max n 1)
  | some c =>
    let exponentLetter := if c = 'E' ∨ c = 'G' then 'E' else 'e'
    if c = 'e' ∨ c = 'E' then
      let (ds, power) := leadingDigits m q (places + 1)
      exponential exponentLetter s.alternate ds power
    else if c = 'f' ∨ c = 'F' ∨ c = '%' then
      let (whole, fraction) := fixedDigits m q places
      withPoint s.alternate whole fraction
    else general exponentLetter s.alternate false m q (max places 1)

/-- The letters of notations of floating point numbers. -/
def doubleLetters : List Char := ['e', 'E', 'f', 'F', 'g', 'G', 'n', '%']

/-- Lays out a floating point number. -/
def layOutDouble (s : Style) (d : Double) : Except StyleFault String := do
  if s.precision.any (greatestPrecision < ·) then throw .precisionTooBig
  let upper := s.letter.any ['E', 'F', 'G'].contains
  let percent : List Char := if s.letter = some '%' then ['%'] else []
  let word (w : String) : List Char := (if upper then w.toList.map Char.toUpper else w.toList) ++ percent
  match if s.letter = some '%' then hundredfold d else d with
  | .nan => return layOut s 3 false [] [] (word "nan")
  | .infinite negative => return layOut s 3 negative [] [] (word "inf")
  | .finite negative m q =>
    let (whole, rest) := notationParts s s.letter m q
    let isNothing := (whole ++ rest.takeWhile fun c => c ≠ 'e' && c ≠ 'E').all fun c => c = '0' || c = '.'
    return layOut s 3 (negative && !(s.dropsZeroSign && isNothing)) [] whole (rest ++ percent)

/-- Lays out a floating point number in a style as written. -/
def Double.styled (style : List Char) (d : Double) : Except StyleFault String := do
  let s ← Style.read "float" true none style
  match s.letter with
  | some c => unless doubleLetters.contains c do throw (.unknownLetter c "float")
  | none => pure ()
  layOutDouble s d

/-! ### Integers -/

/-- The base that a letter means, the mark of it, and how many digits stand together. -/
def baseOf (letter : Char) : Nat × List Char × Nat :=
  if letter = 'b' then (2, ['0', 'b'], 4)
  else if letter = 'o' then (8, ['0', 'o'], 4)
  else if letter = 'x' then (16, ['0', 'x'], 4)
  else if letter = 'X' then (16, ['0', 'X'], 4)
  else (10, [], 3)

/-- The character that an integer is. -/
def characterOf (n : Int) : Except StyleFault Char :=
  if n < -9223372036854775808 ∨ 9223372036854775807 < n then .error .farFromCharacter
  else if n < 0 ∨ 0x110000 ≤ n then .error .noCharacter
  else .ok (Char.ofNat n.toNat)

/-- Lays out an integer. -/
def layOutInteger (s : Style) (letter : Char) (n : Int) : Except StyleFault String := do
  if s.precision.isSome then throw (.notForInteger "Precision")
  if s.dropsZeroSign then throw (.notForInteger "Negative zero coercion (z)")
  if letter = 'c' then
    if s.sign.isSome then throw (.notForCharacter "Sign")
    if s.alternate then throw (.notForCharacter "Alternate form (#)")
    return layOut s 3 false [] [] [← characterOf n]
  else
    let (base, mark, size) := baseOf letter
    let digits := (Nat.toDigits base n.natAbs).map fun c => if letter = 'X' then c.toUpper else c
    return layOut s size (n < 0) (if s.alternate then mark else []) digits []

/-- Lays out an integer in a style as written, for values of a kind that are integers. -/
def styledInteger (kind : String) (style : List Char) (n : Int) : Except StyleFault String := do
  let s ← Style.read kind true (some 'd') style
  let letter := s.letter.getD 'd'
  if ['b', 'c', 'd', 'n', 'o', 'x', 'X'].contains letter then layOutInteger s letter n
  else if doubleLetters.contains letter then
    let d := Double.ofInt n
    unless d.isFinite do throw .beyondDoubles
    layOutDouble s d
  else throw (.unknownLetter letter kind)

end ThriftGateway.Number
