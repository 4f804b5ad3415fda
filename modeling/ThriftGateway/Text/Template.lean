import ThriftGateway.Text.DecimalDigit

/-!
# Templates

A template is a text with slots.  A slot stands in braces: the way to what is put in, then perhaps `!` and a letter
for how it is turned into a text, and perhaps `:` and a style.  A brace that is text is written twice.  Templates are
cut from left to right, so a fault comes up behind the pieces before it: `pieces` and `Slot.steps` give what they
cut as far as it is well formed, and then the fault.
-/

namespace ThriftGateway.Text

/-- Why a text is no template. -/
inductive TemplateFault where
  /-- The template ends with a single brace. -/
  | openingAtEnd
  | singleClosing
  | braceInSlot
  | unclosed
  | unclosedStyle
  | noConversion
  /-- Something follows the conversion that begins no style. -/
  | styleExpected
  | emptyStep
  | unclosedBracket
  /-- Something follows a bracket that begins no step. -/
  | stepExpected
  | numberTooLarge
  | unknownConversion (c : Char)
  /-- A slot is numbered after one that is not. -/
  | numbered
  /-- A slot is not numbered after one that is. -/
  | unnumbered
  /-- Slots that are numbered fill nothing here. -/
  | numbersRefused
  /-- Slots are nested too deeply in styles. -/
  | tooDeep
  deriving DecidableEq, Repr

/-- How messages name a character: as it is if it can be seen, else by its number. -/
def nameOfLetter (last : Nat) (c : Char) : String :=
  if 32 < c.toNat ∧ c.toNat ≤ last then c.toString else "\\x" ++ String.ofList (Nat.toDigits 16 c.toNat)

/-- The words for a fault. -/
def TemplateFault.message : TemplateFault → String
  | openingAtEnd => "Single '\x7b' encountered in format string"
  | singleClosing => "Single '\x7d' encountered in format string"
  | braceInSlot => "unexpected '\x7b' in field name"
  | unclosed => "expected '\x7d' before end of string"
  | unclosedStyle => "unmatched '\x7b' in format spec"
  | noConversion => "end of string while looking for conversion specifier"
  | styleExpected => "expected ':' after conversion specifier"
  | emptyStep => "Empty attribute in format string"
  | unclosedBracket => "Missing ']' in format string"
  | stepExpected => "Only '.' or '[' may follow ']' in format field specifier"
  | numberTooLarge => "Too many decimal digits in format string"
  | unknownConversion c => "Unknown conversion specifier " ++ nameOfLetter 126 c
  | numbered => "cannot switch from automatic field numbering to manual field specification"
  | unnumbered => "cannot switch from manual field specification to automatic field numbering"
  | numbersRefused => "Format string contains positional fields"
  | tooDeep => "Max string recursion exceeded"

/-- What a cut gives is a piece of the template and the rest of it. -/
abbrev TemplateCut := Except TemplateFault

/-! ### Slots -/

/-- A slot of a template. -/
structure Slot where
  /-- The way to what is put in. -/
  way : List Char
  conversion : Option Char
  style : List Char
  deriving DecidableEq, Repr

/-- The way at the front of a slot, the character that ends it, and what follows.  Nothing in brackets ends it. -/
def cutWay : (inBrackets : Bool) → List Char → TemplateCut (List Char × Char × List Char)
  | _, [] => .error .unclosed
  | true, c :: cs => do
    let (way, stop, rest) ← cutWay (c ≠ ']') cs
    return (c :: way, stop, rest)
  | false, c :: cs =>
    if c = '\x7b' then .error .braceInSlot
    else if c = '\x7d' ∨ c = ':' ∨ c = '!' then .ok ([], c, cs)
    else do
      let (way, stop, rest) ← cutWay (c = '[') cs
      return (c :: way, stop, rest)

/-- A style up to the brace that closes its slot; `depth` braces within the style are open. -/
def cutStyle : (depth : Nat) → List Char → TemplateCut (List Char × List Char)
  | _, [] => .error .unclosedStyle
  | depth, c :: cs =>
    if c = '\x7d' ∧ depth = 0 then .ok ([], cs)
    else do
      let (style, rest) ←
        cutStyle (if c = '\x7b' then depth + 1 else if c = '\x7d' then depth - 1 else depth) cs
      return (c :: style, rest)

/-- A slot behind its opening brace. -/
def cutSlot (cs : List Char) : TemplateCut (Slot × List Char) := do
  let (way, stop, rest) ← cutWay false cs
  let styled (conversion : Option Char) (cs : List Char) : TemplateCut (Slot × List Char) := do
    let (style, rest) ← cutStyle 0 cs
    return (⟨way, conversion, style⟩, rest)
  if stop = '\x7d' then return (⟨way, none, []⟩, rest)
  else if stop = ':' then styled none rest
  else
    match rest with
    | [] => throw .noConversion
    | [_] => throw .unclosedStyle
    | c :: next :: rest =>
      let conversion : Option Char := if c = '\x00' then none else some c
      if next = '\x7d' then return (⟨way, conversion, []⟩, rest)
      else if next = ':' then styled conversion rest
      else throw .styleExpected

/-! ### Pieces -/

/-- A piece of a template. -/
inductive Piece where
  | plain (c : Char)
  | slot (s : Slot)
  /-- Here the template is malformed, and nothing follows. -/
  | fault (f : TemplateFault)
  deriving DecidableEq, Repr

/-- The pieces of a template; `fuel` is at least its length. -/
def piecesFrom : (fuel : Nat) → List Char → List Piece
  | 0, _ => []
  | _, [] => []
  | fuel + 1, c :: cs =>
    if c = '\x7b' then
      match cs with
      | [] => [.fault .openingAtEnd]
      | d :: rest =>
        if d = '\x7b' then .plain c :: piecesFrom fuel rest
        else
          match cutSlot (d :: rest) with
          | .ok (s, rest) => .slot s :: piecesFrom fuel rest
          | .error f => [.fault f]
    else if c = '\x7d' then
      match cs with
      | '\x7d' :: rest => .plain c :: piecesFrom fuel rest
      | _ => [.fault .singleClosing]
    else .plain c :: piecesFrom fuel cs

/-- The pieces of a template. -/
def pieces (cs : List Char) : List Piece := piecesFrom cs.length cs

/-! ### Ways -/

/-- A step on the way to what is put in. -/
inductive Step where
  | attribute (name : String)
  | item (name : String)
  | index (n : Nat)
  deriving DecidableEq, Repr

/-- The number that a text is, if it consists of digits. -/
def index? (cs : List Char) : TemplateCut (Option Nat) :=
  match leadingNumber? 0 cs with
  | none => .error .numberTooLarge
  | some (n, rest) => .ok (if cs.isEmpty || !rest.isEmpty then none else some n)

/-- Neither a point nor an opening bracket. -/
def isWithinStep (c : Char) : Bool := c ≠ '.' && c ≠ '['

/-- The step that the text in brackets is. -/
def itemStep (cs : List Char) : TemplateCut Step := do
  match ← index? cs with
  | some n => return .index n
  | none => if cs.isEmpty then throw .emptyStep else return .item (String.ofList cs)

/-- The steps of a way, and where it is malformed a fault as the last of them; `fuel` is at least its length. -/
def stepsFrom : (fuel : Nat) → List Char → List (TemplateCut Step)
  | 0, _ => []
  | _, [] => []
  | fuel + 1, c :: cs =>
    let andThen (step : TemplateCut Step) (rest : List Char) : List (TemplateCut Step) :=
      match step with
      | .ok _ => step :: stepsFrom fuel rest
      | .error _ => [step]
    if c = '.' then
      let name := cs.takeWhile isWithinStep
      andThen (if name.isEmpty then .error .emptyStep else .ok (.attribute (String.ofList name)))
        (cs.dropWhile isWithinStep)
    else if c = '[' then
      let key := cs.takeWhile (· ≠ ']')
      match cs.dropWhile (· ≠ ']') with
      | [] => [.error .unclosedBracket]
      | _ :: rest => andThen (itemStep key) rest
    else [.error .stepExpected]

/-- The name or number with which the way of a slot begins. -/
def Slot.start (s : Slot) : List Char := s.way.takeWhile isWithinStep

/-- The steps from there on. -/
def Slot.steps (s : Slot) : List (TemplateCut Step) :=
  let rest := s.way.dropWhile isWithinStep
  stepsFrom rest.length rest

end ThriftGateway.Text
