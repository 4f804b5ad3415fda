/-!
# Similarity of words

Two words are as alike as the share of their characters that match is large.  The longest piece that the words have in
common matches, and so does, on either side of it, what the rests have in common in the same way.
-/

namespace ThriftGateway.Command

/-- The length of the longest common beginning. -/
def commonStart : List Char → List Char → Nat
  | c :: cs, d :: ds => if c = d then commonStart cs ds + 1 else 0
  | _, _ => 0

/-- A piece that two words have in common: where it begins in each, and its length. -/
structure CommonPiece where
  left : Nat
  right : Nat
  length : Nat
  deriving DecidableEq, Repr

/-- The longest piece that two words have in common: of several the one that begins first in the first word, and of
these the one that begins first in the second. -/
def longestPiece (a b : List Char) : CommonPiece :=
  let starts := (List.range a.length).flatMap fun i => (List.range b.length).map fun j => (i, j)
  starts.foldl (fun best (i, j) =>
    let n := commonStart (a.drop i) (b.drop j)
    if best.length < n then ⟨i, j, n⟩ else best) ⟨0, 0, 0⟩

/-- The number of characters that match; `fuel` is at least the length of the first word. -/
def matched : (fuel : Nat) → List Char → List Char → Nat
  | 0, _, _ => 0
  | fuel + 1, a, b =>
    let p := longestPiece a b
    if p.length = 0 then 0
    else
      matched fuel (a.take p.left) (b.take p.right) + p.length +
        matched fuel (a.drop (p.left + p.length)) (b.drop (p.right + p.length))

/-- Whether at least three fifths of the characters of two words match. -/
def isSimilar (a b : String) : Bool :=
  3 * (a.length + b.length) ≤ 10 * matched a.length a.toList b.toList

end ThriftGateway.Command
