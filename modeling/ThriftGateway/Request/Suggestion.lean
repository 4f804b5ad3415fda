import ThriftGateway.Text.Blank
import ThriftGateway.Text.DecimalDigit

/-!
# Suggestions

Names that a misspelt name may have been meant for: those within a few edits, the nearest first.
-/

namespace ThriftGateway.Request

/-- One row of the table of edit distances: the cells for a character `c` after `before` in the longer word, from
the cells `up` of the row above and `upUp` of the row above that one.  `left` is the cell to the left. -/
def distanceRow (c : Char) (before : Option Char) : (shorter : List Char) → (last : Option Char) → (up : List Nat) →
    (upUp : Option (List Nat)) → (left : Nat) → List Nat
  | d :: ds, last, diagonal :: above :: up, upUp, left =>
    let cost := if c = d then 0 else 1
    let cell := min (min (above + 1) (left + 1)) (diagonal + cost)
    let swapped : Option Nat :=
      if last = some c ∧ before = some d then upUp.bind fun cells => cells.head?.map (· + 1) else none
    let cell := swapped.elim cell (min cell)
    cell :: distanceRow c before ds (some d) (above :: up)
      (if last.isSome then upUp.map List.tail else upUp) cell
  | _, _, _, _, _ => []

/-- The last cell of the table of edit distances, row by row; none once a row has no cell within the limit. -/
def distanceRows (limit : Nat) (shorter : List Char) : (longer : List Char) → (row : Nat) → (before : Option Char) →
    (up : List Nat) → (upUp : Option (List Nat)) → Option Nat
  | [], _, _, up, _ => up.getLast?
  | c :: cs, row, before, up, upUp =>
    let cells := row :: distanceRow c before shorter none up upUp row
    if limit < (cells.min?).getD 0 then none
    else distanceRows limit shorter cs (row + 1) (some c) cells (some up)

/-- A character in small letters.  Two characters beyond ASCII have a Latin letter as theirs, and one of them puts
a dot behind it. -/
def smallLetters (c : Char) : List Char :=
  if c = '\u212A' then ['k'] else if c = '\u0130' then ['i', '\u0307'] else [c.toLower]

/-- A word in small letters. -/
def inSmallLetters (word : String) : List Char := word.toList.flatMap smallLetters

/-- The table of distances has a column for every character of the misspelt word; small letters need more. -/
structure TableTooNarrow where
  deriving DecidableEq, Repr

/-- The words for it. -/
def TableTooNarrow.message (_ : TableTooNarrow) : String := "list assignment index out of range"

/-- The number of edits from one word to another, if it is within a limit.  An edit puts in, leaves out, replaces
or swaps characters; a change of case alone counts as one edit. -/
def distanceWithin (limit : Nat) (word option : String) : Except TableTooNarrow (Option Nat) :=
  if word = option then .ok (some 0)
  else
    let a := inSmallLetters option
    let b := inSmallLetters word
    if a = b then .ok (some 1)
    else
      let (longer, shorter) := if a.length < b.length then (b, a) else (a, b)
      if limit < longer.length - shorter.length then .ok none
      else if word.length < shorter.length then .error {}
      else
        .ok ((distanceRows limit shorter longer 1 none (List.range (shorter.length + 1)) none).filter (· ≤ limit))

/-- A piece of a word: digits count as a number, and of equal numbers as a text. -/
inductive Piece where
  | text (cs : List Char)
  | number (n : Nat) (digits : List Char)
  deriving DecidableEq

/-- A word cut where digits begin and end: texts and numbers take turns, and a text comes first. -/
def pieces : (fuel : Nat) → List Char → List Piece
  | 0, _ => []
  | fuel + 1, cs =>
    let isDigit (c : Char) := (Text.digitValue? c).isSome
    let letters := cs.takeWhile (!isDigit ·)
    let rest := cs.dropWhile (!isDigit ·)
    let digits := rest.takeWhile isDigit
    if digits.isEmpty then [.text letters]
    else
      let n := digits.foldl (fun n c => n * 10 + (Text.digitValue? c).getD 0) 0
      .text letters :: .number n digits :: pieces fuel (rest.dropWhile isDigit)

/-- The order of pieces. -/
def Piece.less : Piece → Piece → Bool
  | text a, text b => a < b
  | number m a, number n b => if m = n then a < b else m < n
  | text _, number .. => false
  | number .., text _ => true

/-- The order of cut words. -/
def piecesLess : List Piece → List Piece → Bool
  | [], [] => false
  | [], _ => true
  | _, [] => false
  | a :: as, b :: bs => if a = b then piecesLess as bs else a.less b

/-- The order of words in which numbers inside them count as numbers. -/
def naturalLess (a b : String) : Bool :=
  piecesLess (pieces (a.length + 1) a.toList) (pieces (b.length + 1) b.toList)

/-- The distances of the options that are within a limit. -/
def nearOptions (limit : Nat) (word : String) : List String → Except TableTooNarrow (List (Nat × String))
  | [] => .ok []
  | o :: os => do
    let d ← distanceWithin limit word o
    let rest ← nearOptions limit word os
    return match d with
      | some d => (d, o) :: rest
      | none => rest

/-- The options that a word may have been meant for, the nearest first. -/
def suggestions? (word : String) (options : List String) : Except TableTooNarrow (List String) := do
  let near ← nearOptions (word.length * 2 / 5 + 1) word options
  return (near.mergeSort fun x y => x.1 < y.1 || (x.1 = y.1 && !naturalLess y.2 x.2)).map (·.2)

/-- The options that a name may have been meant for.  A name is in ASCII, so the table is wide enough for it. -/
def suggestions (name : String) (options : List String) : List String := (suggestions? name options).toOption.getD []

/-- The most names that are suggested. -/
def maxSuggestions : Nat := 5

/-- A question with suggested names, led by a space; empty without any. -/
def didYouMean (what : String) (names : List String) : String :=
  let quoted := (names.take maxSuggestions).map fun n => "'" ++ n ++ "'"
  let lead := " Did you mean " ++ (if what = "" then "" else what ++ " ")
  match quoted with
  | [] => ""
  | [a] => lead ++ a ++ "?"
  | [a, b] => lead ++ a ++ " or " ++ b ++ "?"
  | _ => lead ++ ", ".intercalate quoted.dropLast ++ ", or " ++ (quoted.getLast?.getD "") ++ "?"

end ThriftGateway.Request
