import ThriftGateway.Text.Template

/-!
# Styles

A style says how a value is laid out in the slot of a template: within which width, at which end of it, filled with
what, and for numbers with which signs, marks and digits.  It is written as fill and alignment, sign, `z`, `#`, `0`,
width, separator, a point with a precision, and a letter, each of which may be left out.
-/

namespace ThriftGateway.Text

/-- Where a value stands within the width. -/
inductive Alignment where
  | left
  | right
  | center
  /-- At the right, with the fill between the sign and the digits. -/
  | behindSign
  deriving DecidableEq, Repr

/-- What stands before a number that is not negative. -/
inductive SignStyle where
  | plus
  | space
  | minus
  deriving DecidableEq, Repr

/-- How a value is laid out. -/
structure Style where
  fill : Char
  alignment : Alignment
  sign : Option SignStyle
  /-- A negative number that is rounded to zero loses its sign. -/
  dropsZeroSign : Bool
  /-- Marks of the base and points are always written. -/
  alternate : Bool
  width : Nat
  /-- What stands between groups of digits. -/
  separator : Option Char
  precision : Option Nat
  /-- The letter of the notation. -/
  letter : Option Char
  deriving DecidableEq, Repr

/-- Why a value cannot be laid out. -/
inductive StyleFault where
  | numberTooLarge
  | bothSeparators
  | separatorWith (separator letter : Char)
  | precisionMissing
  | malformed (style kind : String)
  | unknownLetter (letter : Char) (kind : String)
  /-- Something that only numbers have. -/
  | notForText (what : String)
  /-- Something that an integer has not. -/
  | notForInteger (what : String)
  /-- Something that an integer has not if it is written as a character. -/
  | notForCharacter (what : String)
  | precisionTooBig
  /-- Values of a kind that have no styles. -/
  | noStyles (kind : String)
  /-- An integer that is no character. -/
  | noCharacter
  /-- An integer that is far from being a character. -/
  | farFromCharacter
  /-- An integer beyond the floating point numbers. -/
  | beyondDoubles
  deriving DecidableEq, Repr

/-- The words for a fault. -/
def StyleFault.message : StyleFault → String
  | numberTooLarge => TemplateFault.numberTooLarge.message
  | bothSeparators => "Cannot specify both ',' and '_'."
  | separatorWith s c => "Cannot specify '" ++ s.toString ++ "' with '" ++ nameOfLetter 127 c ++ "'."
  | precisionMissing => "Format specifier missing precision"
  | malformed style kind => "Invalid format specifier '" ++ style ++ "' for object of type '" ++ kind ++ "'"
  | unknownLetter c kind => "Unknown format code '" ++ nameOfLetter 127 c ++ "' for object of type '" ++ kind ++ "'"
  | notForText what => what ++ " not allowed in string format specifier"
  | notForInteger what => what ++ " not allowed in integer format specifier"
  | notForCharacter what => what ++ " not allowed with integer format specifier 'c'"
  | precisionTooBig => "precision too big"
  | noStyles kind => "unsupported format string passed to " ++ kind ++ ".__format__"
  | noCharacter => "%c arg not in range(0x110000)"
  | farFromCharacter => "Python int too large to convert to C long"
  | beyondDoubles => "int too large to convert to float"

/-! ### Reading styles -/

/-- The alignment that a character stands for. -/
def alignment? (c : Char) : Option Alignment :=
  if c = '<' then some .left
  else if c = '>' then some .right
  else if c = '^' then some .center
  else if c = '=' then some .behindSign
  else none

/-- The sign style that a character stands for. -/
def signStyle? (c : Char) : Option SignStyle :=
  if c = '+' then some .plus
  else if c = ' ' then some .space
  else if c = '-' then some .minus
  else none

/-- The fill and the alignment at the front of a style, and what follows. -/
def cutAlignment (cs : List Char) : Option Char × Option Alignment × List Char :=
  match cs with
  | [] => (none, none, [])
  | c :: rest =>
    match rest.head?.bind alignment? with
    | some a => (some c, some a, rest.tail)
    | none => (none, alignment? c, if (alignment? c).isSome then rest else cs)

/-- Whether a text begins with a character, and what follows it. -/
def cutMark (c : Char) (cs : List Char) : Bool × List Char :=
  if cs.head? = some c then (true, cs.tail) else (false, cs)

/-- The letters with which digits may stand in groups. -/
def groupingLetters : List Char := ['d', 'e', 'f', 'g', 'E', 'G', '%', 'F']

/-- The letters with which an underscore, but no comma, may stand between groups of digits. -/
def baseLetters : List Char := ['b', 'o', 'x', 'X']

/-- The separator between groups of digits, and what follows. -/
def cutSeparator (cs : List Char) : Except StyleFault (Option Char × List Char) :=
  match cs with
  | ',' :: '_' :: _ | '_' :: ',' :: _ => .error .bothSeparators
  | ',' :: rest => .ok (some ',', rest)
  | '_' :: rest => .ok (some '_', rest)
  | _ => .ok (none, cs)

/-- The precision behind a point, and what follows. -/
def cutPrecision (cs : List Char) : Except StyleFault (Option Nat × List Char) :=
  match cs with
  | '.' :: rest =>
    match leadingNumber? 0 rest with
    | none => .error .numberTooLarge
    | some (n, rest') => if rest'.length = rest.length then .error .precisionMissing else .ok (some n, rest')
  | _ => .ok (none, cs)

/-- The letter at the end of a style for values of a kind. -/
def cutLetter (style : List Char) (kind : String) (default : Option Char) (cs : List Char) :
    Except StyleFault (Option Char) :=
  match cs with
  | [] => .ok default
  | [c] => .ok (some c)
  | _ => .error (.malformed (String.ofList style) kind)

/-- Whether a separator may stand with a letter. -/
def takesSeparator (separator letter : Char) : Bool :=
  groupingLetters.contains letter || (separator = '_' && baseLetters.contains letter)

/-- Reads a style for values of a kind, which stand at the right if they are numbers and have a letter of their
own. -/
def Style.read (kind : String) (isNumber : Bool) (letter : Option Char) (cs : List Char) :
    Except StyleFault Style := do
  let (fill, alignment, rest) := cutAlignment cs
  let sign := rest.head?.bind signStyle?
  let rest := if sign.isSome then rest.tail else rest
  let (dropsZeroSign, rest) := cutMark 'z' rest
  let (alternate, rest) := cutMark '#' rest
  let (zero, rest) := if fill.isSome then (false, rest) else cutMark '0' rest
  match leadingNumber? 0 rest with
  | none => throw .numberTooLarge
  | some (width, rest) =>
    let (separator, rest) ← cutSeparator rest
    let (precision, rest) ← cutPrecision rest
    let letter ← cutLetter cs kind letter rest
    match separator, letter with
    | some s, some c => unless takesSeparator s c do throw (.separatorWith s c)
    | _, _ => pure ()
    let usual : Alignment := if !isNumber then .left else if zero then .behindSign else .right
    let fill := fill.getD (if zero then '0' else ' ')
    return ⟨fill, alignment.getD usual, sign, dropsZeroSign, alternate, width, separator, precision, letter⟩

/-! ### Laying out -/

/-- Characters of one kind. -/
def fillOf (c : Char) (n : Nat) : List Char := List.replicate n c

/-- Puts `length` characters into the width of a style: what stands before them, between their two parts and behind
them. -/
def Style.margins (s : Style) (length : Nat) : List Char × List Char × List Char :=
  let n := s.width - length
  match s.alignment with
  | .left => ([], [], fillOf s.fill n)
  | .right => (fillOf s.fill n, [], [])
  | .center => (fillOf s.fill (n / 2), [], fillOf s.fill (n - n / 2))
  | .behindSign => ([], fillOf s.fill n, [])

/-- Puts a head and a body into the width of a style. -/
def Style.place (s : Style) (head body : List Char) : List Char :=
  let (before, between, behind) := s.margins (head.length + body.length)
  before ++ head ++ between ++ body ++ behind

/-- The kind of texts in messages. -/
def textKind : String := "str"

/-- Lays out a text: its first characters, as many as the precision says. -/
def Style.layOutText (style : List Char) (cs : List Char) : Except StyleFault (List Char) := do
  let s ← Style.read textKind false (some 's') style
  match s.letter with
  | some c => if c ≠ 's' then throw (.unknownLetter c textKind)
  | none => pure ()
  match s.sign with
  | some .space => throw (.notForText "Space")
  | some _ => throw (.notForText "Sign")
  | none => pure ()
  if s.dropsZeroSign then throw (.notForText "Negative zero coercion (z)")
  if s.alternate then throw (.notForText "Alternate form (#)")
  if s.alignment = .behindSign then throw (.notForText "'=' alignment")
  return s.place [] (s.precision.elim cs cs.take)

end ThriftGateway.Text
