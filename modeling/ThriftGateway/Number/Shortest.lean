import ThriftGateway.Number.Double

/-!
# Shortest decimal texts

The text of a floating point number has the fewest digits that read back as the same number and, among those,
the ones nearest to it.  `Notation` says how the digits are laid out.
-/

namespace ThriftGateway.Number

/-- Digits and the place of the point: the value is `0.d₁d₂… * 10 ^ point`. -/
structure Digits where
  digits : List Nat
  point : Int
  deriving DecidableEq, Repr

/-- Whether `a * 10 ^ p ≤ b * 2 ^ q`. -/
def tenLeTwo (a : Nat) (p : Int) (b : Nat) (q : Int) : Bool :=
  a * tenTo p.toNat * twoTo (-q).toNat ≤ b * twoTo q.toNat * tenTo (-p).toNat

/-- Whether `b * 2 ^ q ≤ a * 10 ^ p`. -/
def twoLeTen (b : Nat) (q : Int) (a : Nat) (p : Int) : Bool :=
  b * twoTo q.toNat * tenTo (-p).toNat ≤ a * tenTo p.toNat * twoTo (-q).toNat

/-- Whether `a * 10 ^ p` reads back as `m * 2 ^ q`: it lies between the halfway points to the neighbours, which
count as inside if the mantissa is even. -/
def readsBack (m : Nat) (q : Int) (a : Nat) (p : Int) : Bool :=
  let below := if m = twoTo 52 ∧ Double.leastExponent < q then 4 * m - 1 else 4 * m - 2
  let above := 4 * m + 2
  if m % 2 = 0 then twoLeTen below (q - 2) a p && tenLeTwo a p above (q - 2)
  else !tenLeTwo a p below (q - 2) && !twoLeTen above (q - 2) a p

/-- The largest whole number of units `10 ^ p` in `m * 2 ^ q`. -/
def unitsIn (m : Nat) (q p : Int) : Nat :=
  m * twoTo q.toNat * tenTo (-p).toNat / (tenTo p.toNat * twoTo (-q).toNat)

/-- The least `k` with `m * 2 ^ q < 10 ^ k`, searched from a guess upwards. -/
def scaleFrom (m : Nat) (q : Int) : (fuel : Nat) → Int → Int
  | 0, k => k
  | fuel + 1, k => if tenLeTwo 1 k m q then scaleFrom m q fuel (k + 1) else k

/-- The least `k` with `m * 2 ^ q < 10 ^ k`. -/
def scaleOf (m : Nat) (q : Int) : Int :=
  let bits : Int := m.log2 + q
  scaleFrom m q 4 (bits * 30103 / 100000 - 1)

/-- Of two neighbouring grid points the one that reads back, or the nearer one if both do; of two equally near
ones the even one. -/
def pick (m : Nat) (q : Int) (p : Int) : Option Nat :=
  let a := unitsIn m q p
  match readsBack m q a p, readsBack m q (a + 1) p with
  | false, false => none
  | true, false => some a
  | false, true => some (a + 1)
  | true, true =>
    -- compare twice the value with the sum of the two
    if !twoLeTen (2 * m) q (2 * a + 1) p then some (a + 1)
    else if !tenLeTwo (2 * a + 1) p (2 * m) q then some a
    else if a % 2 = 0 then some a else some (a + 1)

/-- The first grid, from coarse to fine, with a point that reads back. -/
def search (m : Nat) (q k : Int) : (fuel : Nat) → (n : Nat) → Option (Nat × Int)
  | 0, _ => none
  | fuel + 1, n =>
    match pick m q (k - n) with
    | some a => some (a, k - n)
    | none => search m q k fuel (n + 1)

/-- The decimal digits of a number, most significant first. -/
def digitsOf (n : Nat) : List Nat := (toString n).toList.map fun c => c.toNat - 48

/-- Zeros at the end left out. -/
def dropZeros (ds : List Nat) : List Nat := (ds.reverse.dropWhile (· = 0)).reverse

/-- The shortest digits of a positive number `m * 2 ^ q`. -/
def shortest (m : Nat) (q : Int) : Digits :=
  let (a, p) := (search m q (scaleOf m q) 17 1).getD
    (if 0 ≤ q then (m * twoTo q.toNat, 0) else (m * Nat.pow 5 (-q).toNat, q))
  let ds := digitsOf a
  ⟨dropZeros ds, p + ds.length⟩

/-- How digits are laid out. -/
structure Layout where
  /-- Numbers with the point at one of these places are written without an exponent. -/
  leastPoint : Int
  greatestPoint : Int
  /-- The fewest digits of an exponent. -/
  exponentDigits : Nat
  /-- Whether a whole number is written with a zero after its point. -/
  keepsPoint : Bool

/-- Digits as characters. -/
def digitText (ds : List Nat) : String := String.ofList (ds.map fun d => Char.ofNat (48 + d))

/-- Zeros in front of a number up to a width. -/
def padded (width n : Nat) : String :=
  let s := toString n
  String.ofList (List.replicate (width - s.length) '0') ++ s

/-- The text of digits in a layout. -/
def Layout.write (l : Layout) (d : Digits) : String :=
  let n := d.digits.length
  if l.leastPoint ≤ d.point ∧ d.point ≤ l.greatestPoint then
    if d.point ≤ 0 then "0." ++ String.ofList (List.replicate (-d.point).toNat '0') ++ digitText d.digits
    else if n ≤ d.point.toNat then
      digitText d.digits ++ String.ofList (List.replicate (d.point.toNat - n) '0') ++
        (if l.keepsPoint then ".0" else "")
    else digitText (d.digits.take d.point.toNat) ++ "." ++ digitText (d.digits.drop d.point.toNat)
  else
    let e := d.point - 1
    let mantissa := match d.digits with
      | [] => "0"
      | [x] => digitText [x]
      | x :: rest => digitText [x] ++ "." ++ digitText rest
    mantissa ++ "e" ++ (if e < 0 then "-" else "+") ++ padded l.exponentDigits e.natAbs

/-- The text of a number in a layout. -/
def Double.textIn (l : Layout) : Double → String
  | .nan => "nan"
  | .infinite negative => if negative then "-inf" else "inf"
  | .finite negative 0 _ => (if negative then "-0" else "0") ++ (if l.keepsPoint then ".0" else "")
  | .finite negative m e => (if negative then "-" else "") ++ l.write (shortest m e)

/-- Numbers from `0.0001` up to below `10 ^ 16` are written without an exponent, whole ones with `.0`; other
exponents have a sign and at least two digits. -/
def plainLayout : Layout := ⟨-3, 16, 2, true⟩

/-- As `plainLayout`, but whole numbers have no point. -/
def literalLayout : Layout := { plainLayout with keepsPoint := false }

/-- The text of a number. -/
def Double.text (d : Double) : String := d.textIn plainLayout

end ThriftGateway.Number
