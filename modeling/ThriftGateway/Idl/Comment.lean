import ThriftGateway.Grammar.Basic
import ThriftGateway.Idl.Terminal
import ThriftGateway.Text.Blank

/-!
# Comments as descriptions

A comment alone on its lines leads the node that opens the next line, together with the comments right above
it.  A comment after something else on its line trails the node that closes that line.  `CommentIndex.describe`
gives the description of a node from both.
-/

namespace ThriftGateway.Idl

open Grammar (Position Token)
open Text (trim isWhite)

/-- A piece of the text: from its first character to the place after its last one. -/
structure Extent where
  start : Position
  stop : Position
  deriving DecidableEq, Repr

/-- The lines of a text and its comments, in order. -/
structure CommentIndex where
  lines : List (List Char)
  comments : List (Token Terminal)

namespace CommentIndex

/-- The index of a text with the given comments. -/
def ofText (text : List Char) (comments : List (Token Terminal)) : CommentIndex := ⟨Text.lines text, comments⟩

variable (x : CommentIndex)

/-- The given line; empty past the last one. -/
def line (n : Nat) : List Char := (x.lines[n - 1]?).getD []

/-- What stands before a place on its line. -/
def before (p : Position) : List Char := (x.line p.line).take (p.column - 1)

/-- Only white space stands before the place on its line. -/
def opensLine (p : Position) : Bool := (trim (x.before p)).isEmpty

/-- Only blanks and separators stand between a node's end and a comment on the same line. -/
def closesLine (node : Extent) (comment : Token Terminal) : Bool :=
  let between := ((x.line node.stop.line).take (comment.start.column - 1)).drop (node.stop.column - 1)
  between.all fun c => c = ' ' || c = '\t' || c = ',' || c = ';'

/-- The comment that stands alone on its lines and ends on line `n`. -/
def leading? (n : Nat) : Option (Token Terminal) :=
  x.comments.reverse.find? fun t => t.stop.line = n && x.opensLine t.start

/-- The comments that begin on line `n` after something else. -/
def trailing (n : Nat) : List (Token Terminal) :=
  x.comments.filter fun t => t.start.line = n && !x.opensLine t.start

/-- The run of leading comments that ends on line `n`, in order; `fuel` bounds its length. -/
def leadingBlock : (fuel : Nat) → (n : Nat) → List (Token Terminal)
  | 0, _ => []
  | fuel + 1, n =>
    match x.leading? n with
    | none => []
    | some t => leadingBlock fuel (t.start.line - 1) ++ [t]

end CommentIndex

/-- Leaves out a star at the front and the white space after it. -/
private def dropStar : List Char → List Char
  | '*' :: cs => trim cs
  | cs => cs

/-- The text of a comment without its marks and without the stars down its left side. -/
def cleanComment (text : String) : String :=
  match text.toList with
  | '/' :: '*' :: cs =>
    let body := match cs.dropLast.dropLast with
      | '*' :: cs => cs
      | cs => cs
    let lines := ((Text.lines body).map fun l => dropStar (trim l)).filter (!·.isEmpty)
    "\n".intercalate (lines.map String.ofList)
  | '/' :: '/' :: cs => String.ofList (trim cs)
  | _ :: cs => String.ofList (trim cs)
  | [] => ""

/-- The comments that describe a node: those that lead it, if it opens its line, and, if it may have trailing
comments, those that trail it. -/
def CommentIndex.commentsOf (x : CommentIndex) (node : Extent) (withTrailing : Bool) : List (Token Terminal) :=
  let above := if x.opensLine node.start then x.leadingBlock node.start.line (node.start.line - 1) else []
  let behind := if withTrailing then (x.trailing node.stop.line).filter (x.closesLine node) else []
  above ++ behind

/-- The description of a node: its comments without marks, those that say something, one below the other. -/
def CommentIndex.describe (x : CommentIndex) (node : Extent) (withTrailing : Bool) : Option String :=
  let parts := ((x.commentsOf node withTrailing).map fun t => cleanComment t.text).filter (· ≠ "")
  if parts.isEmpty then none else some ("\n".intercalate parts)

end ThriftGateway.Idl
