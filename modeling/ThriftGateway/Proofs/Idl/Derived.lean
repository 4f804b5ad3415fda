import ThriftGateway.Proofs.Idl.Steps

/-!
# What is accepted is derived

The stack of the parser is a path through the automaton (`IsPath`): each state is the one that the tree on it leads to.
The kernel of a state says what has been read on every path to it (`rows_lead`), so a rule that is reduced has all of
its symbols on the stack (`roots_of_kernel`).  The tree that is accepted is therefore derived, and its tokens are those
on the stack (`IsGrown.accept`).
-/

namespace ThriftGateway.Idl

open Grammar (Action Token)

/-! ### Kernels -/

/-- Each item of a kernel is one symbol further than before, and the symbol is `x`; an item further on than the first
symbol is one of the kernel before. -/
def comesFrom (source : Grammar.State) (x : Piece → Bool) (target : Grammar.State) : Bool :=
  target.kernel.all fun q =>
    match q.item.dot with
    | 0 => false
    | d + 1 => ((ruleSymbols q.item.production)[d]?).any x &&
      (d = 0 || source.kernel.any fun r => r.item = ⟨q.item.production, d⟩)

/-- What a state leads to by a symbol is not the first state, and comes from the state; a whole text is read from the
first state only. -/
def leadsWell (s : Nat) (row : Grammar.State) (x : Piece → Bool) (s' : Nat) : Bool :=
  s' ≠ 0 && (states[s']?).any fun target =>
    comesFrom row x target && (s = 0 || target.kernel.all fun q => q.item.production ≠ 0)

/-- A rule that is reduced has been read. -/
def finishes (row : Grammar.State) (rule : Nat) : Bool :=
  (ruleSymbols rule).isEmpty || row.kernel.any fun q => q.item = ⟨rule, (ruleSymbols rule).length⟩

/-- The terminals and categories by their numbers. -/
def isTerminal (n : Nat) : Piece → Bool
  | .terminal t => t.number = n
  | .category _ => false

def isCategory (n : Nat) : Piece → Bool
  | .terminal _ => false
  | .category c => c.number = n

theorem rows_lead : (states.toList.zipIdx.all fun r =>
    (r.1.shifts.all fun e => leadsWell r.2 r.1 (isTerminal e.1) e.2) &&
    (r.1.moves.all fun e => leadsWell r.2 r.1 (isCategory e.1) e.2) &&
    (r.1.reductions.all fun rule => finishes r.1 rule.1) &&
    (r.2 ≠ 0 || r.1.kernel.all fun q => q.item.dot = 0)) = true := by
  decide +kernel

private theorem exists_row_of_action {s : Nat} {t : Terminal} {a : Action} (h : automaton.action? thrift s t = some a) :
    ∃ row, states[s]? = some row ∧ row.action? t.number = some a := Option.bind_eq_some_iff.1 h

private theorem exists_row_of_move {s s' : Nat} {c : Category} (h : automaton.move? thrift s c = some s') :
    ∃ row, states[s]? = some row ∧ row.moves.lookup c.number = some s' := Option.bind_eq_some_iff.1 h

section Table

-- the table is not to be looked into
attribute [local irreducible] automaton states thrift productions

private theorem terminals_number (t : Terminal) : (Terminal.all ++ [Terminal.stop])[t.number]? = some t := by
  cases t <;> rfl

private theorem isTerminal_iff {t : Terminal} {x : Piece} : isTerminal t.number x = true ↔ x = .terminal t := by
  cases x with
  | category c => simp [isTerminal]
  | terminal k =>
    simp only [isTerminal, decide_eq_true_eq, Grammar.Symbol.terminal.injEq]
    constructor
    · intro h
      have hk := terminals_number k
      rw [h, terminals_number t] at hk
      exact (Option.some.inj hk).symm
    · rintro rfl
      rfl

private theorem isCategory_iff {c : Category} {x : Piece} : isCategory c.number x = true ↔ x = .category c := by
  cases x with
  | terminal t => simp [isCategory]
  | category d =>
    simp only [isCategory, decide_eq_true_eq, Grammar.Symbol.category.injEq]
    constructor
    · intro h
      have hd := categories_number d
      rw [h, categories_number c] at hd
      exact (Option.some.inj hd).symm
    · rintro rfl
      rfl

/-- The state that a symbol leads to. -/
def Leads (s : Nat) (x : Piece) (s' : Nat) : Prop :=
  match x with
  | .terminal t => automaton.action? thrift s t = some (.shift s')
  | .category c => automaton.move? thrift s c = some s'

/-- What is known of the rows of the table, by the number of the row. -/
private theorem row_leads {s : Nat} {row : Grammar.State} (h : states[s]? = some row) :
    (∀ e ∈ row.shifts, leadsWell s row (isTerminal e.1) e.2 = true) ∧
      (∀ e ∈ row.moves, leadsWell s row (isCategory e.1) e.2 = true) ∧
      (∀ rule ∈ row.reductions, finishes row rule.1 = true) ∧
      (s ≠ 0 || row.kernel.all fun q => q.item.dot = 0) = true := by
  have hmem : (row, s) ∈ states.toList.zipIdx := by
    rw [List.mem_zipIdx_iff_getElem?, Array.getElem?_toList]
    exact h
  have hrow := List.all_eq_true.1 rows_lead _ hmem
  simpa only [Bool.and_eq_true, List.all_eq_true, and_assoc] using hrow

/-- The first state has read nothing. -/
private theorem kernel_start {row : Grammar.State} (h : states[0]? = some row) : ∀ q ∈ row.kernel, q.item.dot = 0 := by
  simpa using (row_leads h).2.2.2

/-- What a row does comes from its shifts and its reductions. -/
private theorem action?_cases {row : Grammar.State} {n : Nat} {a : Action} (h : row.action? n = some a) :
    (∃ s, a = .shift s ∧ (n, s) ∈ row.shifts) ∨
      ∃ r ∈ row.reductions, a = if r.1 = 0 then .accept else .reduce (r.1 - 1) := by
  unfold Grammar.State.action? at h
  split at h
  · rename_i s hs
    obtain ⟨front, behind, hshifts, -⟩ := List.lookup_eq_some_iff.1 hs
    exact .inl ⟨s, (Option.some.inj h).symm, by rw [hshifts]; simp⟩
  · obtain ⟨r, hr, rfl⟩ := Option.map_eq_some_iff.1 h
    exact .inr ⟨r, List.mem_of_find?_eq_some hr, rfl⟩

/-- A rule that is reduced has been read, and so has the whole text when it is accepted. -/
private theorem finishes_of_action {s : Nat} {t : Terminal} {a : Action} (h : automaton.action? thrift s t = some a)
    (rule : Nat) (ha : a = finishing rule) : ∃ row, states[s]? = some row ∧ finishes row rule = true := by
  obtain ⟨row, hrow, haction⟩ := exists_row_of_action h
  obtain ⟨s', rfl, -⟩ | ⟨r, hr, hrule⟩ := action?_cases haction
  · unfold finishing at ha
    split at ha <;> cases ha
  · obtain rfl : r.1 = rule := by
      rw [hrule] at ha
      unfold finishing at ha
      split at ha <;> split at ha <;> simp at ha <;> omega
    exact ⟨row, hrow, (row_leads hrow).2.2.1 r hr⟩

private theorem Leads.exists_leadsWell {s s' : Nat} {x : Piece} (h : Leads s x s') :
    ∃ row, states[s]? = some row ∧ ∃ p : Piece → Bool, (∀ y, p y = true → y = x) ∧ leadsWell s row p s' = true := by
  cases x with
  | terminal t =>
    obtain ⟨row, hrow, haction⟩ := exists_row_of_action h
    obtain ⟨_, ⟨⟩, hs⟩ | ⟨r, -, hr⟩ := action?_cases haction
    · exact ⟨row, hrow, _, fun y => isTerminal_iff.1, (row_leads hrow).1 _ hs⟩
    · split at hr <;> cases hr
  | category c =>
    obtain ⟨row, hrow, hmove⟩ := exists_row_of_move h
    obtain ⟨front, behind, hmoves, -⟩ := List.lookup_eq_some_iff.1 hmove
    have hs : (c.number, s') ∈ row.moves := by rw [hmoves]; simp
    exact ⟨row, hrow, _, fun y => isCategory_iff.1, (row_leads hrow).2.1 _ hs⟩

end Table

/-! ### Paths -/

/-- A stack on which each tree leads from the state below to its own. -/
inductive IsPath : List Frame → Prop
  | nil : IsPath []
  | cons {stack : List Frame} {s : Nat} {tree : Tree} : IsPath stack → Leads (topState stack) tree.root s →
      IsPath ((s, tree) :: stack)

section Paths

attribute [local irreducible] automaton states thrift productions

variable {stack stack' : List Frame}

theorem IsPath.drop (h : IsPath stack) (n : Nat) : IsPath (stack.drop n) := by
  induction h generalizing n with
  | nil => simpa using IsPath.nil
  | cons h hs ih =>
    cases n with
    | zero => exact .cons h hs
    | succ n => exact ih n

/-- Only the empty stack is in the first state. -/
private theorem IsPath.eq_nil (h : IsPath stack) (hs : topState stack = 0) : stack = [] := by
  cases h with
  | nil => rfl
  | cons _ hleads =>
    obtain ⟨row, -, p, -, hwell⟩ := hleads.exists_leadsWell
    obtain rfl : _ = 0 := hs
    simp [leadsWell] at hwell

/-- What an item of the kernel has read is on top of the stack. -/
theorem roots_of_kernel {n d : Nat} (h : IsPath stack) {row : Grammar.State} (hrow : states[topState stack]? = some row)
    (hitem : ∃ q ∈ row.kernel, q.item = ⟨n, d⟩) :
    d ≤ stack.length ∧ ((stack.take d).map fun f => f.2.root).reverse = (ruleSymbols n).take d := by
  induction d generalizing stack row with
  | zero => simp
  | succ d ih =>
    obtain ⟨q, hq, hitem⟩ := hitem
    cases h with
    | nil =>
      have hdot := kernel_start hrow q hq
      rw [hitem] at hdot
      cases hdot
    | @cons stack s tree hpath hleads =>
      obtain ⟨source, hsource, p, hp, hwell⟩ := hleads.exists_leadsWell
      have hrow' : states[s]? = some row := hrow
      unfold leadsWell at hwell
      rw [hrow', Option.any_some, Bool.and_eq_true, Bool.and_eq_true] at hwell
      have hcomes := List.all_eq_true.1 hwell.2.1 q hq
      rw [hitem] at hcomes
      dsimp only at hcomes
      rw [Bool.and_eq_true, Bool.or_eq_true] at hcomes
      obtain ⟨hsymbol, hbefore⟩ := hcomes
      obtain ⟨x, hx, hxp⟩ := (Option.any_eq_true _ _).1 hsymbol
      obtain rfl := hp x hxp
      have hfront : d ≤ stack.length ∧ ((stack.take d).map fun f => f.2.root).reverse = (ruleSymbols n).take d := by
        rcases hbefore with hzero | hbefore
        · obtain rfl := of_decide_eq_true hzero
          simp
        · obtain ⟨r, hr, hritem⟩ := List.any_eq_true.1 hbefore
          exact ih hpath hsource ⟨r, hr, of_decide_eq_true hritem⟩
      refine ⟨Nat.succ_le_succ hfront.1, ?_⟩
      rw [List.take_succ_cons, List.map_cons, List.reverse_cons, hfront.2, List.take_add_one, hx]
      rfl

/-- The symbols of a rule that has been read are on top of the stack. -/
private theorem roots_of_finishes (h : IsPath stack) {row : Grammar.State} (hrow : states[topState stack]? = some row)
    {rule : Nat} (hrule : finishes row rule = true) :
    (ruleSymbols rule).length ≤ stack.length ∧
      ((stack.take (ruleSymbols rule).length).map fun f => f.2.root).reverse = ruleSymbols rule := by
  unfold finishes at hrule
  rw [Bool.or_eq_true] at hrule
  rcases hrule with hnone | hitem
  · rw [List.isEmpty_iff.1 hnone]
    simp
  · obtain ⟨q, hq, hitem⟩ := List.any_eq_true.1 hitem
    have hroots := roots_of_kernel h hrow ⟨q, hq, of_decide_eq_true hitem⟩
    rwa [List.take_length] at hroots

end Paths

/-! ### Trees on the stack -/

/-- A tree that is derived, or the document of an empty text. -/
def Tree.IsDerived (t : Tree) : Prop := Tree.Derives t ∨ t = .node .document []

/-- What is known of every stack: it is a path, and its trees are derived. -/
structure IsGrown (stack : List Frame) : Prop where
  path : IsPath stack
  derived : ∀ f ∈ stack, f.2.IsDerived

/-- The tokens of the trees on a stack, in order. -/
def stackTokens (stack : List Frame) : List (Token Terminal) :=
  Grammar.Tree.tokensAll (stack.map Prod.snd).reverse

theorem stackTokens_cons (f : Frame) (stack : List Frame) :
    stackTokens (f :: stack) = stackTokens stack ++ f.2.tokens := by
  unfold stackTokens
  rw [List.map_cons, List.reverse_cons, tokensAll_append]
  simp [Grammar.Tree.tokensAll]

/-- Only documents derive nothing, and no document is a part of anything. -/
private theorem productions_fill : (productions.all fun p => (!p.symbols.isEmpty || p.category = .document) &&
    !p.symbols.contains (.category .document)) = true := by
  decide

/-- A node over derived trees, the roots of which are the symbols of a production, is derived. -/
private theorem isDerived_node {p : Grammar.Production Terminal Category} (hp : p ∈ productions) {ts : List Tree}
    (hroots : ts.map Grammar.Tree.root = p.symbols) (hts : ∀ t ∈ ts, t.IsDerived) :
    Tree.IsDerived (.node p.category ts) := by
  have hfill := List.all_eq_true.1 productions_fill p hp
  rw [Bool.and_eq_true, Bool.or_eq_true] at hfill
  obtain ⟨hempty, hdocument⟩ := hfill
  by_cases hne : ts = []
  · rw [hne] at hroots ⊢
    have hcategory : p.category = .document := by simpa [← hroots] using hempty
    exact .inr (by rw [hcategory])
  · refine .inl ⟨hne, by rw [hroots]; exact hp, deriveAll_iff.2 fun t ht => (hts t ht).resolve_right ?_⟩
    rintro rfl
    have hroot : Grammar.Symbol.category .document ∈ p.symbols := hroots ▸ List.mem_map_of_mem ht
    simp [hroot] at hdocument

section Taking

attribute [local irreducible] automaton states thrift productions

variable {stack stack' : List Frame}

/-- A reduction keeps the stack grown, and its tokens. -/
private theorem IsGrown.reduce (h : IsGrown stack) {t : Terminal} {n : Nat}
    (haction : automaton.action? thrift (topState stack) t = some (.reduce n))
    {p : Grammar.Production Terminal Category} (hp : productions[n]? = some p)
    (hreduce : Idl.reduce stack p = some stack') : IsGrown stack' ∧ stackTokens stack' = stackTokens stack := by
  obtain ⟨row, hrow, hrule⟩ := finishes_of_action haction (n + 1) rfl
  have hsymbols : ruleSymbols (n + 1) = p.symbols := by
    show (productions[n]?).elim [] _ = _
    rw [hp]
    rfl
  obtain ⟨-, hroots⟩ := roots_of_finishes h.path hrow hrule
  rw [hsymbols] at hroots
  unfold Idl.reduce at hreduce
  obtain ⟨s, hmove, rfl⟩ := Option.map_eq_some_iff.1 hreduce
  have hderived : Tree.IsDerived (.node p.category ((stack.take p.symbols.length).map Prod.snd).reverse) := by
    refine isDerived_node (List.mem_of_getElem? hp) ?_ fun t ht => ?_
    · rw [List.map_reverse, List.map_map]
      exact hroots
    · obtain ⟨f, hf, rfl⟩ := List.mem_map.1 (List.mem_reverse.1 ht)
      exact h.derived f (List.mem_of_mem_take hf)
  refine ⟨⟨.cons (h.path.drop _) hmove, ?_⟩, ?_⟩
  · intro f hf
    rcases List.mem_cons.1 hf with rfl | hf
    · exact hderived
    · exact h.derived f (List.mem_of_mem_drop hf)
  · rw [stackTokens_cons]
    show Grammar.Tree.tokensAll _ ++ Grammar.Tree.tokensAll _ = Grammar.Tree.tokensAll _
    rw [← tokensAll_append, ← List.reverse_append, ← List.map_append, List.take_append_drop]

/-- The state that a terminal is shifted to comes after the reductions, which keep the tokens. -/
theorem IsGrown.shift (h : IsGrown stack) {fuel s : Nat} {k : Terminal} (htake : take fuel stack k = .shift s stack') :
    IsGrown stack' ∧ stackTokens stack' = stackTokens stack ∧ Leads (topState stack') (.terminal k) s := by
  induction fuel generalizing stack with
  | zero => cases htake
  | succ fuel ih =>
    obtain ⟨s', haction, heq⟩ | ⟨s', tree, rest, -, -, heq⟩ | ⟨n, p, stack₁, haction, hp, hreduce, heq⟩ | heq :=
      take_succ_cases fuel stack k
    · rw [heq] at htake
      cases htake
      exact ⟨h, rfl, haction⟩
    · rw [heq] at htake
      cases htake
    · obtain ⟨hgrown, htokens⟩ := h.reduce haction hp hreduce
      rw [← htokens]
      exact ih hgrown (heq ▸ htake)
    · rw [heq] at htake
      cases htake

/-- Only a document leads to the state that accepts, and only from the first state. -/
private theorem IsPath.of_accept {s : Nat} {tree : Tree} (h : IsPath ((s, tree) :: stack)) {k : Terminal}
    (haction : automaton.action? thrift s k = some .accept) : stack = [] ∧ tree.root = .category .document := by
  obtain ⟨row, hrow, hrule⟩ := finishes_of_action haction 0 rfl
  have hroots := (roots_of_finishes h hrow hrule).2
  have hroot : tree.root = .category .document := by simpa [ruleSymbols] using hroots
  have hitem : ∃ q ∈ row.kernel, q.item = ⟨0, 1⟩ := by
    simpa [finishes, ruleSymbols] using hrule
  obtain ⟨q, hq, hitem⟩ := hitem
  cases h with
  | cons hpath hleads =>
    refine ⟨?_, hroot⟩
    obtain ⟨source, -, p, -, hwell⟩ := hleads.exists_leadsWell
    unfold leadsWell at hwell
    rw [hrow, Option.any_some, Bool.and_eq_true, Bool.and_eq_true, Bool.or_eq_true] at hwell
    rcases hwell.2.2 with hzero | hnone
    · exact hpath.eq_nil (of_decide_eq_true hzero)
    · have hproduction := List.all_eq_true.1 hnone q hq
      rw [hitem] at hproduction
      cases hproduction

/-- The tree that is accepted is all that is on the stack after the reductions. -/
theorem IsGrown.accept (h : IsGrown stack) {fuel : Nat} {k : Terminal} {tree : Tree}
    (htake : take fuel stack k = .accept tree) :
    tree.IsDerived ∧ tree.root = .category .document ∧ tree.tokens = stackTokens stack := by
  induction fuel generalizing stack with
  | zero => cases htake
  | succ fuel ih =>
    obtain ⟨s', haction, heq⟩ | ⟨s, tree', rest, haction, rfl, heq⟩ | ⟨n, p, stack₁, haction, hp, hreduce, heq⟩ | heq :=
      take_succ_cases fuel stack k
    · rw [heq] at htake
      cases htake
    · rw [heq] at htake
      cases htake
      obtain ⟨rfl, hroot⟩ := h.path.of_accept haction
      exact ⟨h.derived _ List.mem_cons_self, hroot, by rw [stackTokens_cons]; rfl⟩
    · obtain ⟨hgrown, htokens⟩ := h.reduce haction hp hreduce
      rw [← htokens]
      exact ih hgrown (heq ▸ htake)
    · rw [heq] at htake
      cases htake

end Taking

end ThriftGateway.Idl
