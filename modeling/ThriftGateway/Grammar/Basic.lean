/-!
# Context-free grammars and parse trees

A grammar is a list of productions over terminals and categories.  Right-hand sides are written with optional
parts (`Part`) and expanded into plain symbol sequences by `Part.expand`, so that no production but one of the
start category is ever empty.
-/

namespace ThriftGateway.Grammar

/-- A terminal is read from the text; a category stands for what one of its productions derives. -/
inductive Symbol (T C : Type) where
  | terminal (t : T)
  | category (c : C)
  deriving DecidableEq, Repr

/-- A category and one sequence of symbols that it stands for. -/
structure Production (T C : Type) where
  category : C
  symbols : List (Symbol T C)
  deriving DecidableEq, Repr

/-- A piece of a right-hand side: symbols that must be there, or a group that may be left out as a whole. -/
inductive Part (T C : Type) where
  | required (ss : List (Symbol T C))
  | optional (ss : List (Symbol T C))

/-- All symbol sequences that a list of parts stands for. -/
def Part.expand {T C : Type} : List (Part T C) → List (List (Symbol T C))
  | [] => [[]]
  | .required ss :: rest => (Part.expand rest).map (ss ++ ·)
  | .optional ss :: rest => (Part.expand rest).flatMap fun tail => [ss ++ tail, tail]

/-- A grammar with its symbols numbered: terminals from 0, categories from 0. -/
structure Grammar (T C : Type) where
  productions : Array (Production T C)
  start : C
  /-- The terminal that stands for the end of the text. -/
  stop : T
  terminalNumber : T → Nat
  categoryNumber : C → Nat
  terminalCount : Nat
  categoryCount : Nat

/-- A place in a text; lines and columns count from 1. -/
structure Position where
  line : Nat
  column : Nat
  deriving DecidableEq, Repr

namespace Position

/-- The first place of a text. -/
def origin : Position := ⟨1, 1⟩

/-- The place after `c`; only a line feed ends a line. -/
def after (p : Position) (c : Char) : Position :=
  if c = '\n' then ⟨p.line + 1, 1⟩ else ⟨p.line, p.column + 1⟩

/-- The place after all of `cs`. -/
def advance (p : Position) (cs : List Char) : Position := cs.foldl after p

end Position

/-- A piece of the text read as terminal `kind`, with the place of its first character and the place after
its last one. -/
structure Token (T : Type) where
  kind : T
  text : String
  start : Position
  stop : Position
  deriving DecidableEq, Repr

/-- A parse tree. -/
inductive Tree (T C : Type) where
  | leaf (token : Token T)
  | node (category : C) (children : List (Tree T C))

namespace Tree

variable {T C : Type}

/-- The symbol that the tree derives from. -/
def root : Tree T C → Symbol T C
  | leaf token => .terminal token.kind
  | node c _ => .category c

mutual
/-- The tokens of the tree, in order. -/
def tokens : Tree T C → List (Token T)
  | leaf token => [token]
  | node _ children => tokensAll children

/-- The tokens of several trees, in order. -/
def tokensAll : List (Tree T C) → List (Token T)
  | [] => []
  | t :: ts => t.tokens ++ tokensAll ts
end

mutual
/-- The first token of the tree. -/
def first? : Tree T C → Option (Token T)
  | leaf token => some token
  | node _ children => firstOf? children

/-- The first token of several trees. -/
def firstOf? : List (Tree T C) → Option (Token T)
  | [] => none
  | t :: ts => t.first?.or (firstOf? ts)
end

mutual
/-- The last token of the tree. -/
def last? : Tree T C → Option (Token T)
  | leaf token => some token
  | node _ children => lastOf? children

/-- The last token of several trees. -/
def lastOf? : List (Tree T C) → Option (Token T)
  | [] => none
  | t :: ts => (lastOf? ts).or t.last?
end

/-- The children of a node, none for a leaf. -/
def children : Tree T C → List (Tree T C)
  | leaf _ => []
  | node _ children => children

/-- The first child that derives from category `c`. -/
def child? [DecidableEq C] (t : Tree T C) (c : C) : Option (Tree T C) :=
  t.children.find? fun
    | leaf _ => false
    | node d _ => d = c

/-- The tokens that are children of the tree itself. -/
def leaves (t : Tree T C) : List (Token T) :=
  t.children.filterMap fun
    | leaf token => some token
    | node _ _ => none

/-- The text of the `n`-th token of kind `k` among the children. -/
def leafText [DecidableEq T] (t : Tree T C) (k : T) (n : Nat) : String :=
  ((t.leaves.filter (·.kind = k))[n]?).elim "" Token.text

mutual
/-- The elements of a list written with the left-recursive category `c`: its productions have an element, or
the list so far followed by an element, at the front. -/
def elements [DecidableEq C] (c : C) : Tree T C → List (Tree T C)
  | leaf token => [leaf token]
  | node d children => if d = c then elementsAll c children else [node d children]

/-- The elements of the lists among several trees, and the other trees themselves. -/
def elementsAll [DecidableEq C] (c : C) : List (Tree T C) → List (Tree T C)
  | [] => []
  | t :: ts => t.elements c ++ elementsAll c ts
end

end Tree

end ThriftGateway.Grammar
