/-!
# Blanks and lines

White space in the sense of Unicode, and the cutting of a text into lines at any of the characters that end one.
-/

namespace ThriftGateway.Text

/-- White space: the blanks and separators of Unicode and the control characters that separate. -/
def isWhite (c : Char) : Bool :=
  let n := c.toNat
  (9 ≤ n && n ≤ 13) || (28 ≤ n && n ≤ 32) || n = 0x85 || n = 0xA0 || n = 0x1680 || (0x2000 ≤ n && n ≤ 0x200A) ||
    n = 0x2028 || n = 0x2029 || n = 0x202F || n = 0x205F || n = 0x3000

/-- Leaves out the characters at both ends that satisfy `p`. -/
def trimBy (p : Char → Bool) (cs : List Char) : List Char := ((cs.dropWhile p).reverse.dropWhile p).reverse

/-- Leaves out the white space at both ends. -/
def trim (cs : List Char) : List Char := trimBy isWhite cs

/-- The characters that end a line: line feed, carriage return, vertical tab, form feed, the file, group and
record separators, next line, line separator and paragraph separator. -/
def endsLine (c : Char) : Bool :=
  let n := c.toNat
  (10 ≤ n && n ≤ 13) || (28 ≤ n && n ≤ 30) || n = 0x85 || n = 0x2028 || n = 0x2029

/-- The lines of a text without what ends them.  A carriage return and a line feed together end one line, and
nothing after the last line end is no line. -/
def lines : List Char → List (List Char)
  | [] => []
  | '\r' :: '\n' :: cs => [] :: lines cs
  | c :: cs =>
    if endsLine c then [] :: lines cs
    else
      match lines cs with
      | [] => [[c]]
      | l :: ls => (c :: l) :: ls

/-- Whether `part` occurs somewhere in a text. -/
def containsText (part : List Char) : List Char → Bool
  | [] => part.isEmpty
  | c :: cs => part.isPrefixOf (c :: cs) || containsText part cs

/-- Cuts a text at every `c`. -/
def splitAt (c : Char) : List Char → List (List Char)
  | [] => [[]]
  | d :: cs =>
    if d = c then [] :: splitAt c cs
    else
      match splitAt c cs with
      | [] => [[d]]
      | l :: ls => (d :: l) :: ls

/-- The lines of a longer text, with blanks between them. -/
@[irreducible] def prose (lines : List String) : String := " ".intercalate lines

end ThriftGateway.Text
