import ThriftGateway.Grammar.Basic

/-!
# LALR(1) automata

From a grammar to the deterministic automaton that recognises it with one terminal of lookahead.  A state is a
set of items without lookahead (its kernel); the terminals that may follow a finished item are collected over
all ways of reaching the state, until nothing changes.  The row of a state says for each terminal whether to
shift it or to reduce a production, and has no entry for a terminal that cannot come next.

Sets of terminals are numbers whose bit `t` stands for terminal `t`.
-/

namespace ThriftGateway.Grammar

/-- A production, by its number, and how many of its symbols have been read. -/
structure Item where
  production : Nat
  dot : Nat
  deriving DecidableEq, Repr

/-- An item with the terminals that may follow the whole production. -/
structure Prospect where
  item : Item
  follow : Nat
  deriving DecidableEq, Repr

/-- What an automaton does on a terminal. -/
inductive Action where
  | shift (state : Nat)
  | reduce (production : Nat)
  | accept
  deriving DecidableEq, Repr

/-- A state: the items it stands for, the states that terminals are shifted to, the rules that are reduced (rule 0
ends the text), each with the terminals on which it is, and the moves by category. -/
structure State where
  kernel : List Prospect
  shifts : List (Nat × Nat)
  reductions : List (Nat × Nat)
  moves : List (Nat × Nat)
  deriving DecidableEq, Repr

/-- What a state does on a terminal.  Shifting wins over reducing, and an earlier reduction over a later one. -/
def State.action? (s : State) (t : Nat) : Option Action :=
  match s.shifts.lookup t with
  | some next => some (.shift next)
  | none => (s.reductions.find? (·.2.testBit t)).map fun r => if r.1 = 0 then .accept else .reduce (r.1 - 1)

/-- An automaton; its first state is the initial one. -/
structure Automaton where
  states : Array State
  deriving DecidableEq

namespace Grammar

variable {T C : Type} (g : Grammar T C)

/-- Symbols as numbers: terminals first, then categories. -/
def code : Symbol T C → Nat
  | .terminal t => g.terminalNumber t
  | .category c => g.terminalCount + g.categoryNumber c

/-- Productions over coded symbols.  Number 0 derives the start category itself. -/
def rules : List (Nat × List Nat) :=
  (g.terminalCount + g.categoryCount, [g.code (.category g.start)]) ::
    g.productions.toList.map fun p => (g.code (.category p.category), p.symbols.map g.code)

end Grammar

/-! ### First sets -/

/-- What is known of each coded symbol: the terminals it may begin with, and whether it may be empty. -/
abbrev Firsts := Array (Nat × Bool)

/-- The terminals that a sequence may begin with, and whether all of it may be empty. -/
def Firsts.ofSymbols (f : Firsts) : List Nat → Nat × Bool
  | [] => (0, true)
  | s :: rest =>
    match f.getD s (0, false) with
    | (m, false) => (m, false)
    | (m, true) => let (m', e) := Firsts.ofSymbols f rest; (m ||| m', e)

/-- One round: every production adds what its right-hand side may begin with. -/
def Firsts.round (rules : List (Nat × List Nat)) (f : Firsts) : Firsts :=
  rules.foldl (fun f (lhs, rhs) =>
    let (m, e) := f.ofSymbols rhs
    let (m₀, e₀) := f.getD lhs (0, false)
    f.setIfInBounds lhs (m₀ ||| m, e₀ || e)) f

/-- As many rounds as there are symbols; each round that changes anything settles one of them. -/
def Firsts.ofRules (terminals symbols : Nat) (rules : List (Nat × List Nat)) : Firsts :=
  let initial : Firsts :=
    ((List.range symbols).map fun s => if s < terminals then (1 <<< s, false) else (0, false)).toArray
  (List.range symbols).foldl (fun f _ => f.round rules) initial

/-! ### Closures -/

/-- How a category may begin: with another category `lead`, followed by one of `terminals` or, if `inherits`,
by whatever follows the category itself. -/
structure Opening where
  lead : Nat
  terminals : Nat
  inherits : Bool

/-- What closures and moves need to know of a grammar, computed once. -/
structure Plan where
  terminals : Nat
  symbols : Nat
  rules : Array (Nat × List Nat)
  firsts : Firsts
  /-- By symbol: how a category begins with categories. -/
  openings : Array (List Opening)
  /-- By symbol: the first symbols of a category's productions, each with the items past it. -/
  entries : Array (List (Nat × List Item))
  /-- By symbol: the numbers of the empty productions of a category. -/
  empties : Array (List Nat)

/-- Joins openings with the same lead. -/
def Opening.insert (o : Opening) : List Opening → List Opening
  | [] => [o]
  | p :: rest =>
    if p.lead = o.lead then ⟨p.lead, p.terminals ||| o.terminals, p.inherits || o.inherits⟩ :: rest
    else p :: Opening.insert o rest

/-- Adds a value under a key of an association list, keeping the order of the keys. -/
def addUnder {α : Type} (key : Nat) (x : α) : List (Nat × List α) → List (Nat × List α)
  | [] => [(key, [x])]
  | (k, xs) :: rest => if k = key then (k, xs ++ [x]) :: rest else (k, xs) :: addUnder key x rest

/-- Collects the plan of a grammar. -/
def Plan.ofRules (terminals symbols : Nat) (rules : List (Nat × List Nat)) : Plan :=
  let firsts := Firsts.ofRules terminals symbols rules
  let numbered := rules.zipIdx
  let ofSymbol (s : Nat) := numbered.filter fun r => r.1.1 = s
  let openings (s : Nat) : List Opening := (ofSymbol s).foldl (fun os r =>
    match r.1.2 with
    | [] => os
    | x :: rest =>
      if x < terminals then os
      else let (m, e) := firsts.ofSymbols rest; Opening.insert ⟨x, m, e⟩ os) []
  let entries (s : Nat) : List (Nat × List Item) := (ofSymbol s).foldl (fun es r =>
    match r.1.2 with
    | [] => es
    | x :: _ => addUnder x ⟨r.2, 1⟩ es) []
  let empties (s : Nat) : List Nat := (ofSymbol s).filterMap fun r =>
    if r.1.2.isEmpty then some r.2 else none
  let all := List.range symbols
  { terminals, symbols, rules := rules.toArray, firsts
    openings := (all.map openings).toArray
    entries := (all.map entries).toArray
    empties := (all.map empties).toArray }

namespace Plan

variable (p : Plan)

/-- The symbols of an item that have not been read. -/
def unread (i : Item) : List Nat := (p.rules.getD i.production (0, [])).2.drop i.dot

/-- Follow sets of the categories that may begin at some item, by symbol; 0 where none may. -/
abbrev Reach := Array Nat

/-- Adds terminals to the follow set of a symbol. -/
def Reach.add (r : Reach) (s m : Nat) : Reach := r.setIfInBounds s (r.getD s 0 ||| m)

/-- What the items of a kernel open at once. -/
def reachOfKernel (kernel : List Prospect) : Reach :=
  kernel.foldl (fun r q =>
    match p.unread q.item with
    | [] => r
    | x :: rest =>
      if x < p.terminals then r
      else
        let (m, e) := p.firsts.ofSymbols rest
        Reach.add r x (if e then m ||| q.follow else m)) (Array.replicate p.symbols 0)

/-- One round of openings from every category reached so far. -/
def reachRound (r : Reach) : Reach :=
  (List.range p.symbols).foldl (fun r s =>
    let follow := r.getD s 0
    if follow = 0 then r
    else (p.openings.getD s []).foldl (fun r o =>
      Reach.add r o.lead (if o.inherits then o.terminals ||| follow else o.terminals)) r) r

/-- Rounds until nothing changes, at most `n`. -/
def reachFixed : Nat → Reach → Reach
  | 0, r => r
  | n + 1, r => let r' := p.reachRound r; if r' = r then r else reachFixed n r'

/-- The follow set of every category that may begin where the kernel stands. -/
def reach (kernel : List Prospect) : Reach := p.reachFixed p.symbols (p.reachOfKernel kernel)

/-- Puts a prospect into a kernel sorted by item, joining equal items. -/
def insertProspect (q : Prospect) : List Prospect → List Prospect
  | [] => [q]
  | r :: rest =>
    if r.item = q.item then ⟨r.item, r.follow ||| q.follow⟩ :: rest
    else if q.item.production < r.item.production ∨
        (q.item.production = r.item.production ∧ q.item.dot < r.item.dot) then q :: r :: rest
    else r :: insertProspect q rest

/-- The kernels that the moves out of a state lead to, by symbol. -/
def successors (kernel : List Prospect) : List (Nat × List Prospect) :=
  let r := p.reach kernel
  let opened := (List.range p.symbols).foldl (fun acc s =>
    let follow := r.getD s 0
    if follow = 0 then acc
    else (p.entries.getD s []).foldl (fun acc e =>
      e.2.foldl (fun acc i => addUnder e.1 ⟨i, follow⟩ acc) acc) acc) []
  let all := kernel.foldl (fun acc q =>
    match p.unread q.item with
    | [] => acc
    | x :: _ => addUnder x ⟨⟨q.item.production, q.item.dot + 1⟩, q.follow⟩ acc) opened
  all.map fun (x, qs) => (x, qs.foldl (fun k q => insertProspect q k) [])

/-- The productions that may be reduced in a state, each with the terminals on which it is. -/
def reductions (kernel : List Prospect) : List (Nat × Nat) :=
  let r := p.reach kernel
  let finished := kernel.filterMap fun q =>
    if (p.unread q.item).isEmpty then some (q.item.production, q.follow) else none
  let empty := (List.range p.symbols).flatMap fun s =>
    let follow := r.getD s 0
    if follow = 0 then [] else (p.empties.getD s []).map (·, follow)
  finished ++ empty

end Plan

/-! ### States -/

/-- Adds the lookaheads of `new` to a kernel with the same items. -/
def mergeKernel (old new : List Prospect) : List Prospect :=
  old.zipWith (fun a b => ⟨a.item, a.follow ||| b.follow⟩) new

/-- Two kernels with the same items, whatever their lookaheads. -/
def sameItems (a b : List Prospect) : Bool := a.map Prospect.item = b.map Prospect.item

/-- Joins a kernel into the states found so far.  The second result is the state that has changed, if any. -/
def absorb (states : Array (List Prospect)) (k : List Prospect) : Array (List Prospect) × Option Nat :=
  match states.findIdx? (sameItems k) with
  | none => (states.push k, some states.size)
  | some i =>
    let old := states.getD i []
    let merged := mergeKernel old k
    if merged = old then (states, none) else (states.setIfInBounds i merged, some i)

/-- Follows the moves out of the states of `work` until no state is new and no lookahead grows. -/
def explore (p : Plan) : Nat → Array (List Prospect) → List Nat → Array (List Prospect)
  | 0, states, _ => states
  | _ + 1, states, [] => states
  | fuel + 1, states, i :: work =>
    let (states, work) := (p.successors (states.getD i [])).foldl (fun (acc : _ × List Nat) s =>
      match absorb acc.1 s.2 with
      | (states, none) => (states, acc.2)
      | (states, some j) => (states, if acc.2.contains j then acc.2 else acc.2 ++ [j])) (states, work)
    explore p fuel states work

/-- The row of a state. -/
def rowOf (p : Plan) (states : Array (List Prospect)) (kernel : List Prospect) : State :=
  let successors := (p.successors kernel).map fun (x, k) => (x, (states.findIdx? (sameItems k)).getD 0)
  { kernel
    shifts := successors.filter (·.1 < p.terminals)
    reductions := p.reductions kernel
    moves := (successors.filter (p.terminals ≤ ·.1)).map fun (x, j) => (x - p.terminals, j) }

/-- The automaton of a grammar.  Reductions are numbered by the grammar's own list of productions. -/
def Automaton.ofGrammar {T C : Type} (g : Grammar T C) : Automaton :=
  let symbols := g.terminalCount + g.categoryCount + 1
  let plan := Plan.ofRules g.terminalCount symbols g.rules
  let initial : List Prospect := [⟨⟨0, 0⟩, 1 <<< g.terminalNumber g.stop⟩]
  let states := explore plan (plan.rules.size * symbols) #[initial] [0]
  ⟨states.map (rowOf plan states)⟩

namespace Automaton

variable {T C : Type} (a : Automaton) (g : Grammar T C)

/-- What state `s` does on terminal `t`; nothing if `t` cannot come next. -/
def action? (s : Nat) (t : T) : Option Action :=
  (a.states[s]?).bind fun row => row.action? (g.terminalNumber t)

/-- Where state `s` moves once a `c` has been built. -/
def move? (s : Nat) (c : C) : Option Nat :=
  (a.states[s]?).bind fun row => row.moves.lookup (g.categoryNumber c)

end Automaton

end ThriftGateway.Grammar
