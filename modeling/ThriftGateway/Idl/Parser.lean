import ThriftGateway.Idl.OfTree
import ThriftGateway.Idl.Table
import ThriftGateway.Text.Quoted

/-!
# Parsing Thrift texts

The parser cuts a token and then lets the automaton of the grammar take it.  Which terminals are tried depends
on the state that the automaton is in, so a word that means something elsewhere can be a name here, and words
may touch names.  `parse` gives the document, or the first place where the text cannot go on.
-/

namespace ThriftGateway.Idl

open Grammar (Position Token Action Automaton)

/-- The automaton of the Thrift grammar; its states are those of `Automaton.ofGrammar thrift`. -/
def automaton : Automaton := ⟨states⟩

/-! ### Cutting tokens -/

/-- What is tried in a state: terminals in order, and the words that an identifier may turn out to be. -/
structure Mode where
  tried : List Terminal
  words : List Terminal

/-- The mode for a set of accepted terminals.  Blanks and comments are always tried; words that are accepted
beside identifiers are not tried on their own. -/
def Mode.ofAccepted (accepted : List Terminal) : Mode :=
  let words := if accepted.contains .identifier then accepted.filter Terminal.isKeyword else []
  ⟨Terminal.all.filter fun t => (accepted.contains t || t.isIgnored) && !words.contains t, words⟩

/-- The terminals that have an action in a state. -/
def acceptedIn (s : Nat) : List Terminal :=
  (Terminal.all ++ [Terminal.stop]).filter fun t => (automaton.action? thrift s t).isSome

/-- The modes of all states. -/
def modes : Array Mode :=
  ((List.range automaton.states.size).map fun s => Mode.ofAccepted (acceptedIn s)).toArray

/-- The mode of a state. -/
def modeOf (s : Nat) : Mode := (modes[s]?).getD ⟨[], []⟩

/-- The first of the terminals that matches at the front of the text, with the length of its match. -/
def firstMatch (ts : List Terminal) (cs : List Char) : Option (Terminal × Nat) :=
  ts.findSome? fun t => (t.match? cs).map fun n => (t, n)

/-- The token at the front of the text in a mode. -/
def Mode.cut (m : Mode) (cs : List Char) : Option (Terminal × Nat) :=
  match firstMatch m.tried cs with
  | some (.identifier, n) =>
    let text := String.ofList (cs.take n)
    some ((m.words.find? fun w => w.spelling? = some text).getD .identifier, n)
  | r => r

/-- The terminals that a mode can give, blanks and comments aside. -/
def Mode.expected (m : Mode) : List Terminal := m.tried.filter (!·.isIgnored)

/-! ### Running the automaton -/

/-- A state together with the tree that led into it. -/
abbrev Frame := Nat × Tree

/-- The state on top of a stack. -/
def topState : List Frame → Nat
  | [] => 0
  | (s, _) :: _ => s

/-- How the automaton takes a terminal. -/
inductive Taken where
  /-- It moves to a state with the stack left over by its reductions. -/
  | shift (state : Nat) (stack : List Frame)
  /-- The text is complete. -/
  | accept (tree : Tree)
  /-- After its reductions it is in a state that has no action for the terminal. -/
  | blocked (state : Nat)

/-- Replaces the trees of a production's right-hand side on top of the stack by one tree. -/
def reduce (stack : List Frame) (p : Grammar.Production Terminal Category) : Option (List Frame) :=
  let n := p.symbols.length
  let rest := stack.drop n
  let tree : Tree := .node p.category ((stack.take n).map (·.2)).reverse
  (automaton.move? thrift (topState rest) p.category).map fun s => (s, tree) :: rest

/-- Reduces until the terminal is shifted, the text accepted or the automaton blocked. -/
def take : (fuel : Nat) → List Frame → Terminal → Taken
  | 0, stack, _ => .blocked (topState stack)
  | fuel + 1, stack, t =>
    match automaton.action? thrift (topState stack) t with
    | some (.shift s) => .shift s stack
    | some .accept =>
      match stack with
      | (_, tree) :: _ => .accept tree
      | [] => .blocked (topState stack)
    | some (.reduce i) =>
      match (thrift.productions[i]?).bind (reduce stack) with
      | some stack => take fuel stack t
      | none => .blocked (topState stack)
    | none => .blocked (topState stack)

/-- Enough steps for all reductions before one shift: between two productions that shorten the stack there are
at most as many others as there are categories. -/
def takeFuel (stack : List Frame) : Nat := (stack.length + 2) * (Category.count + 1)

/-! ### Errors -/

/-- Why and where a text is not a document. -/
inductive SyntaxError where
  | unexpectedToken (text : String) (expected : List Terminal) (place : Position)
  | unexpectedCharacter (c : Char) (place : Position)
  deriving DecidableEq, Repr

/-- Why a text gives no document. -/
inductive ParseFailure where
  | malformed (error : SyntaxError)
  /-- A field number has more digits than are read. -/
  | numeralTooLong
  deriving DecidableEq, Repr

/-- A diagnostic with its place. -/
structure Issue where
  message : String
  line : Nat
  column : Nat
  deriving DecidableEq, Repr

/-- The text of a diagnostic with its place. -/
def Issue.text (i : Issue) : String := s!"line {i.line}, column {i.column}: {i.message}"

/-- The names of terminals in the order of their characters. -/
def namesOf (ts : List Terminal) : List String := (ts.map Terminal.name).mergeSort fun a b => a ≤ b

/-- The diagnostic of an error. -/
def SyntaxError.issue : SyntaxError → Issue
  | unexpectedToken text expected place =>
    let names := ", ".intercalate (if expected.isEmpty then ["<END-OF-FILE>"] else namesOf expected)
    let found := Text.quoted text
    ⟨s!"unexpected token {found}, expected one of: {names}", place.line, place.column⟩
  | unexpectedCharacter c place =>
    let found := Text.quoted c.toString
    ⟨s!"unexpected character {found}", place.line, place.column⟩

/-! ### Parsing -/

/-- What the parser has read so far. -/
structure Progress where
  stack : List Frame := []
  place : Position := .origin
  /-- Where the last token began. -/
  last : Position := .origin
  /-- The comments met, the latest first. -/
  comments : List (Token Terminal) := []

/-- A parse tree and the comments of its text. -/
structure Parsed where
  tree : Tree
  comments : List (Token Terminal)

/-- The error at a place where no accepted terminal matches: any terminal at all that matches is an unexpected
token. -/
def unmatched (m : Mode) (place : Position) (cs : List Char) : SyntaxError :=
  match firstMatch Terminal.all cs with
  | some (_, n) => .unexpectedToken (String.ofList (cs.take n)) m.expected place
  | none => .unexpectedCharacter (cs.headD ' ') place

/-- Reads the rest of a text; `fuel` is more than its length. -/
def run : (fuel : Nat) → Progress → List Char → Except SyntaxError Parsed
  | 0, p, _ => .error (.unexpectedToken "" [] p.place)
  | _ + 1, p, [] =>
    match take (takeFuel p.stack) p.stack .stop with
    | .accept tree => .ok ⟨tree, p.comments.reverse⟩
    | .shift s _ | .blocked s => .error (.unexpectedToken "" (acceptedIn s) p.last)
  | fuel + 1, p, c :: cs =>
    let text := c :: cs
    let mode := modeOf (topState p.stack)
    match mode.cut text with
    | none => .error (unmatched mode p.place text)
    | some (kind, n) =>
      let piece := text.take n
      let rest := text.drop n
      let stop := p.place.advance piece
      let token : Token Terminal := ⟨kind, String.ofList piece, p.place, stop⟩
      if kind.isIgnored then
        let comments := if kind = .blank then p.comments else token :: p.comments
        run fuel { p with place := stop, comments } rest
      else
        match take (takeFuel p.stack) p.stack kind with
        | .shift s stack =>
          run fuel { p with stack := (s, .leaf token) :: stack, place := stop, last := p.place } rest
        | .accept _ => .error (.unexpectedToken token.text [] p.place)
        | .blocked s => .error (.unexpectedToken token.text (acceptedIn s) p.place)

/-- The parse tree of a text. -/
def parseTree (text : List Char) : Except SyntaxError Parsed := run (text.length + 1) {} text

/-- The document that a text stands for. -/
def parse (text : String) : Except ParseFailure Document :=
  match parseTree text.toList with
  | .error e => .error (.malformed e)
  | .ok parsed =>
    if numbersReadable parsed.tree then
      .ok (Document.ofTree (CommentIndex.ofText text.toList parsed.comments) parsed.tree)
    else .error .numeralTooLong

end ThriftGateway.Idl
