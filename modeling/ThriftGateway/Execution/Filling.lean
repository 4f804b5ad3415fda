import ThriftGateway.Execution.Fact

/-!
# Filling templates

Each slot of a template is replaced by the text of a fact.  Slots are filled from a list, by number, where slots
without a number take one fact after another; or from the items of a single fact, by name.  Styles are templates
too, and slots in them are numbered along with the others.
-/

namespace ThriftGateway.Execution

open Text (Piece Slot Step StyleFault TemplateFault)

/-- Why a template cannot be filled. -/
inductive FillingError where
  | template (fault : TemplateFault)
  | style (fault : StyleFault)
  | item (error : ItemError)
  /-- There are not so many facts. -/
  | noPosition (n : Nat)
  | noName (name : String)
  | noAttribute (kind name : String)
  deriving Repr

/-- The words for an error. -/
def FillingError.message : FillingError → String
  | template f => f.message
  | style f => f.message
  | item e => e.message
  | noPosition n => "Replacement index " ++ toString n ++ " out of range for positional args tuple"
  | noName name => Text.quoted name
  | noAttribute kind name => "'" ++ kind ++ "' object has no attribute '" ++ name ++ "'"

/-- What slots are filled from. -/
inductive Supply where
  | positions (facts : List Fact)
  | itemsOf (fact : Fact)

/-- How the slots before have been numbered. -/
inductive Numbering where
  | unused
  /-- Every slot has a number. -/
  | given
  /-- No slot has a number, and the next one takes this. -/
  | counted (next : Nat)
  deriving DecidableEq, Repr

/-- Filling goes from left to right and keeps account of numbers. -/
abbrev Filling := StateT Numbering (Except FillingError)

/-- What is given, or the error of something that fails. -/
def Filling.ofExcept {ε α : Type} (wrap : ε → FillingError) (r : Except ε α) : Filling α :=
  StateT.lift (r.mapError wrap)

/-- The number of a slot: its own, or the next one. -/
def slotNumber (own : Option Nat) : Filling Nat := do
  match own, ← get with
  | some _, .counted _ => throw (.template .numbered)
  | some n, _ => do
    set Numbering.given
    return n
  | none, .given => throw (.template .unnumbered)
  | none, .counted n => do
    set (Numbering.counted (n + 1))
    return n
  | none, .unused => do
    set (Numbering.counted 1)
    return 0

/-- The fact with which the way of a slot begins. -/
def firstFact (supply : Supply) (start : List Char) : Filling Fact := do
  let number ← Filling.ofExcept .template (Text.index? start)
  if number.isSome || start.isEmpty then
    let n ← slotNumber number
    match supply with
    | .positions facts =>
      match facts[n]? with
      | some f => return f
      | none => throw (.noPosition n)
    | .itemsOf _ => throw (.template .numbersRefused)
  else
    let name := String.ofList start
    match supply with
    | .positions _ => throw (.noName name)
    | .itemsOf f => Filling.ofExcept .item (f.item (.text name))

/-- Takes one step. -/
def Fact.step (f : Fact) : Step → Except FillingError Fact
  | .attribute name =>
    match f.attribute? name with
    | some g => .ok g
    | none => .error (.noAttribute f.kindName name)
  | .item name => (f.item (.text name)).mapError .item
  | .index n => (f.item (.int n)).mapError .item

/-- Goes a way as far as it is well formed. -/
def Fact.follow (f : Fact) : List (Text.TemplateCut Step) → Except FillingError Fact
  | [] => .ok f
  | .error fault :: _ => .error (.template fault)
  | .ok step :: steps => do (← f.step step).follow steps

/-- A text in which all that is beyond ASCII is written as escapes. -/
def inAscii (s : String) : String :=
  String.ofList (s.toList.flatMap fun c => if c.toNat < 0x80 then [c] else Text.escaped c.toNat)

/-- Turns a fact into a text, as the letter of a conversion says. -/
def Fact.convert (f : Fact) : Option Char → Except FillingError Fact
  | none => .ok f
  | some 'r' => .ok (.ofText f.shown)
  | some 's' => .ok (.ofText f.text)
  | some 'a' => .ok (.ofText (inAscii f.shown))
  | some c => .error (.template (.unknownConversion c))

/-- The text for a slot; `inner` fills the slots of its style. -/
def fillSlot (supply : Supply) (inner : List Char → Filling (List Char)) (slot : Slot) : Filling (List Char) := do
  let first ← firstFact supply slot.start
  let found ← StateT.lift (first.follow slot.steps)
  let fact ← StateT.lift (found.convert slot.conversion)
  let style ← if slot.style.contains '\x7b' then inner slot.style else pure slot.style
  return (← Filling.ofExcept .style (fact.styled style)).toList

/-- The text for pieces of a template. -/
def fillPieces (supply : Supply) (inner : List Char → Filling (List Char)) : List Piece → Filling (List Char)
  | [] => return []
  | .plain c :: ps => do return c :: (← fillPieces supply inner ps)
  | .slot s :: ps => do
    let cs ← fillSlot supply inner s
    return cs ++ (← fillPieces supply inner ps)
  | .fault f :: _ => throw (.template f)

/-- Fills a template in which slots are nested up to a depth. -/
def fillTo (supply : Supply) : (depth : Nat) → List Char → Filling (List Char)
  | 0, _ => throw (.template .tooDeep)
  | depth + 1, cs => fillPieces supply (fillTo supply depth) (Text.pieces cs)

/-- How deep slots may be nested. -/
def slotDepth : Nat := 2

/-- Fills a template. -/
def fill (supply : Supply) (template : String) : Except FillingError String :=
  ((fillTo supply slotDepth template.toList).run .unused).map fun r => String.ofList r.1

end ThriftGateway.Execution
