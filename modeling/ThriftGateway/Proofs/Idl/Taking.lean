import ThriftGateway.Proofs.Idl.Prospects

/-!
# Every derivation is accepted

In a state that expects the root of a parse tree, the automaton takes the tokens of the tree and ends up with the tree
on its stack (`isTaken_of_derives`, by induction on the tree).  So it accepts the tokens of every parse tree of a
document, and gives this tree (`accepts_of_derives`).  The fuel of `take` is enough, since reductions make the weight of
the stack smaller (`weight`).
-/

namespace ThriftGateway.Idl

open Grammar (Action Item Production Token)

/-! ### Parse trees of the grammar -/

mutual
/-- The symbols below each node are those of a production of its category, and there is one below each. -/
def Tree.Derives : Tree → Prop
  | .leaf _ => True
  | .node c ts => ts ≠ [] ∧ ⟨c, ts.map Grammar.Tree.root⟩ ∈ productions ∧ Tree.DeriveAll ts

/-- So it is for several trees. -/
def Tree.DeriveAll : List Tree → Prop
  | [] => True
  | t :: ts => Tree.Derives t ∧ Tree.DeriveAll ts
end

theorem deriveAll_iff {ts : List Tree} : Tree.DeriveAll ts ↔ ∀ t ∈ ts, Tree.Derives t := by
  induction ts with
  | nil => simp [Tree.DeriveAll]
  | cons t ts ih => simp [Tree.DeriveAll, ih]

theorem tokensAll_append (ts us : List Tree) :
    Grammar.Tree.tokensAll (ts ++ us) = Grammar.Tree.tokensAll ts ++ Grammar.Tree.tokensAll us := by
  induction ts with
  | nil => rfl
  | cons t ts ih => rw [List.cons_append, Grammar.Tree.tokensAll, Grammar.Tree.tokensAll, ih, List.append_assoc]

/-- The terminal of the first token, or the end of the text. -/
def firstKind : List (Token Terminal) → Terminal
  | [] => .stop
  | token :: _ => token.kind

private theorem mem_rulesOf_of_mem {p : Production Terminal Category} (h : p ∈ productions) :
    ∃ n, productions[n]? = some p ∧ (n + 1, p.symbols) ∈ rulesOf p.category := by
  obtain ⟨n, hn⟩ := List.mem_iff_getElem?.1 h
  exact ⟨n, hn, mem_rulesOf hn⟩

/-- The root of a tree begins with the first token of the tree. -/
theorem firstOf_root (follow : Nat) (rest : List Piece) : (t : Tree) → Tree.Derives t →
    ∃ token toks, t.tokens = token :: toks ∧ (firstOf follow (t.root :: rest)).testBit token.kind.number = true
  | .leaf token, _ => ⟨token, [], rfl, by simp [Grammar.Tree.root, firstOf]⟩
  | .node c [], h => absurd rfl h.1
  | .node c (t :: ts), h => by
    obtain ⟨-, hp, ht, -⟩ := h
    obtain ⟨n, -, hr⟩ := mem_rulesOf_of_mem hp
    have hc := List.all_eq_true.1 firstSets_meet c (List.mem_of_getElem? (categories_number c))
    have hcovers := List.all_eq_true.1 hc _ hr
    rw [Bool.or_eq_true] at hcovers
    obtain ⟨token, toks, htokens, hbit⟩ := firstOf_root 0 (ts.map Grammar.Tree.root) t ht
    refine ⟨token, toks ++ Grammar.Tree.tokensAll ts, ?_, ?_⟩
    · show t.tokens ++ Grammar.Tree.tokensAll ts = _
      rw [htokens]
      rfl
    · exact testBit_of_covers (hcovers.resolve_left (by simp)) hbit
termination_by t => sizeOf t
decreasing_by simp; omega

/-- What can come after a symbol comes first of the trees behind it and the tokens behind these. -/
private theorem mayBegin_of_derives {ts : List Tree} (hts : Tree.DeriveAll ts) (toks : List (Token Terminal)) :
    MayBegin (firstKind (Grammar.Tree.tokensAll ts ++ toks)) (firstKind toks) (ts.map Grammar.Tree.root) := by
  intro follow hfollow
  cases ts with
  | nil => exact hfollow
  | cons t ts =>
    obtain ⟨token, more, htokens, hbit⟩ := firstOf_root follow (ts.map Grammar.Tree.root) t hts.1
    show (firstOf follow (t.root :: ts.map Grammar.Tree.root)).testBit
      (firstKind (t.tokens ++ Grammar.Tree.tokensAll ts ++ toks)).number = true
    rw [htokens]
    exact hbit

/-! ### Taking tokens -/

/-- Takes tokens and the end of the text; `fuel` is for the first of them. -/
def takeAll (fuel : Nat) (stack : List Frame) : List (Token Terminal) → Option Tree
  | [] =>
    match take fuel stack .stop with
    | .accept tree => some tree
    | _ => none
  | token :: toks =>
    match take fuel stack token.kind with
    | .shift s rest => takeAll (takeFuel ((s, .leaf token) :: rest)) ((s, .leaf token) :: rest) toks
    | _ => none

/-- A category that may consist of one symbol ranks higher than the symbol; terminals have rank 0. -/
def rank : Piece → Nat
  | .terminal _ => 0
  | .category .constItems => Category.count
  | .category .named => 1
  | .category c => Category.count - c.number

private theorem rank_le (x : Piece) : rank x ≤ Category.count := by
  unfold rank
  split
  · exact Nat.zero_le _
  · exact Nat.le_refl _
  · decide
  · exact Nat.sub_le _ _

private theorem rank_lt_of_mem {c : Category} {x : Piece}
    (h : (⟨c, [x]⟩ : Production Terminal Category) ∈ productions) : rank x < rank (.category c) := by
  have hall : (productions.all fun p => p.symbols.length != 1 ||
      p.symbols.all fun x => decide (rank x < rank (.category p.category))) = true := by decide
  simpa using List.all_eq_true.1 hall _ h

/-- What reductions make smaller: the stack gets shorter, or its last tree gets a root of higher rank. -/
def weight : List Frame → Nat
  | [] => Category.count
  | (_, t) :: stack => (stack.length + 1) * (Category.count + 1) + (Category.count - rank t.root)

theorem weight_lt_takeFuel (stack : List Frame) : weight stack < takeFuel stack := by
  unfold takeFuel
  cases stack with
  | nil => decide
  | cons f stack =>
    unfold weight
    simp only [List.length_cons, Category.count]
    omega

theorem takeFuel_pos (stack : List Frame) : 0 < takeFuel stack := Nat.zero_lt_of_lt (weight_lt_takeFuel stack)

/-- With enough fuel, the tokens are taken and the text is accepted as the tree. -/
def Accepts (stack : List Frame) (toks : List (Token Terminal)) (tree : Tree) : Prop :=
  ∀ fuel, weight stack < fuel → takeAll fuel stack toks = some tree

section Step

-- the table is not to be looked into when one step of `take` is spelled out
attribute [local irreducible] automaton states thrift productions Grammar.Automaton.action? reduce topState

/-- What taking a terminal does for an action; `again` goes on with another stack. -/
def takeBy (again : List Frame → Taken) (stack : List Frame) : Option Action → Taken
  | some (.shift s) => .shift s stack
  | some .accept =>
    match stack with
    | (_, tree) :: _ => .accept tree
    | [] => .blocked (topState stack)
  | some (.reduce n) =>
    match (thrift.productions[n]?).bind (reduce stack) with
    | some stack => again stack
    | none => .blocked (topState stack)
  | none => .blocked (topState stack)

theorem take_succ (fuel : Nat) (stack : List Frame) (t : Terminal) :
    take (fuel + 1) stack t =
      takeBy (fun stack => take fuel stack t) stack (automaton.action? thrift (topState stack) t) := by
  exact rfl

end Step

theorem production_getElem? (n : Nat) : thrift.productions[n]? = productions[n]? := List.getElem?_toArray

theorem take_of_shift {fuel : Nat} {stack : List Frame} {t : Terminal} {s : Nat}
    (h : automaton.action? thrift (topState stack) t = some (.shift s)) :
    take (fuel + 1) stack t = .shift s stack := by
  rw [take_succ, h, takeBy]

theorem take_of_reduce {fuel : Nat} {stack stack' : List Frame} {t : Terminal} {n : Nat}
    {p : Production Terminal Category} (h : automaton.action? thrift (topState stack) t = some (.reduce n))
    (hp : productions[n]? = some p) (hr : reduce stack p = some stack') :
    take (fuel + 1) stack t = take fuel stack' t := by
  rw [take_succ, h, takeBy, production_getElem?, hp, Option.bind_some, hr]

private theorem take_of_accept {fuel : Nat} {s : Nat} {tree : Tree} {stack : List Frame} {t : Terminal}
    (h : automaton.action? thrift s t = some .accept) : take (fuel + 1) ((s, tree) :: stack) t = .accept tree := by
  rw [take_succ, show topState ((s, tree) :: stack) = s from rfl, h, takeBy]

/-- What taking a terminal does first: it shifts, accepts, goes on after a reduction, or is blocked. -/
theorem take_succ_cases (fuel : Nat) (stack : List Frame) (t : Terminal) :
    (∃ s, automaton.action? thrift (topState stack) t = some (.shift s) ∧ take (fuel + 1) stack t = .shift s stack) ∨
    (∃ s tree rest, automaton.action? thrift s t = some .accept ∧ stack = (s, tree) :: rest ∧
      take (fuel + 1) stack t = .accept tree) ∨
    (∃ n p stack', automaton.action? thrift (topState stack) t = some (.reduce n) ∧ productions[n]? = some p ∧
      reduce stack p = some stack' ∧ take (fuel + 1) stack t = take fuel stack' t) ∨
    take (fuel + 1) stack t = .blocked (topState stack) := by
  cases ha : automaton.action? thrift (topState stack) t with
  | none => exact .inr (.inr (.inr (by rw [take_succ, ha, takeBy])))
  | some a =>
    cases a with
    | shift s => exact .inl ⟨s, rfl, take_of_shift ha⟩
    | accept =>
      cases stack with
      | nil => exact .inr (.inr (.inr (by rw [take_succ, ha, takeBy])))
      | cons f rest => exact .inr (.inl ⟨f.1, f.2, rest, ha, rfl, take_of_accept ha⟩)
    | reduce n =>
      cases hp : (thrift.productions[n]?).bind (reduce stack) with
      | none => exact .inr (.inr (.inr (by rw [take_succ, ha, takeBy, hp])))
      | some stack' =>
        rw [production_getElem?] at hp
        obtain ⟨p, hp, hr⟩ := Option.bind_eq_some_iff.1 hp
        exact .inr (.inr (.inl ⟨n, p, stack', rfl, hp, hr, take_of_reduce ha hp hr⟩))

private theorem Accepts.of_shift {stack : List Frame} {token : Token Terminal} {toks : List (Token Terminal)}
    {tree : Tree} {s : Nat} (h : automaton.action? thrift (topState stack) token.kind = some (.shift s))
    (ha : Accepts ((s, .leaf token) :: stack) toks tree) : Accepts stack (token :: toks) tree := by
  intro fuel hfuel
  obtain ⟨fuel, rfl⟩ : ∃ n, fuel = n + 1 := ⟨fuel - 1, by omega⟩
  rw [takeAll, take_of_shift h]
  exact ha _ (weight_lt_takeFuel _)

theorem Accepts.of_reduce {stack stack' : List Frame} {toks : List (Token Terminal)} {tree : Tree} {n : Nat}
    {p : Production Terminal Category}
    (h : automaton.action? thrift (topState stack) (firstKind toks) = some (.reduce n))
    (hp : productions[n]? = some p) (hr : reduce stack p = some stack') (hw : weight stack' < weight stack)
    (ha : Accepts stack' toks tree) : Accepts stack toks tree := by
  intro fuel hfuel
  obtain ⟨fuel, rfl⟩ : ∃ n, fuel = n + 1 := ⟨fuel - 1, by omega⟩
  have htake : take (fuel + 1) stack (firstKind toks) = take fuel stack' (firstKind toks) := take_of_reduce h hp hr
  have hrest := ha fuel (by omega)
  cases toks with
  | nil =>
    rw [takeAll] at hrest ⊢
    rw [show take (fuel + 1) stack .stop = take fuel stack' .stop from htake]
    exact hrest
  | cons token toks =>
    rw [takeAll] at hrest ⊢
    rw [show take (fuel + 1) stack token.kind = take fuel stack' token.kind from htake]
    exact hrest

/-! ### Trees -/

/-- The trees of a production on top of the stack give way to one tree. -/
private theorem reduce_append {fs stack : List Frame} {c : Category} {ts : List Tree} {s : Nat}
    (hfs : fs.map Prod.snd = ts.reverse) (hs : automaton.move? thrift (topState stack) c = some s) :
    reduce (fs ++ stack) ⟨c, ts.map Grammar.Tree.root⟩ = some ((s, .node c ts) :: stack) := by
  have hlength : ts.length = fs.length := by simpa using (congrArg List.length hfs).symm
  have htake : (((fs ++ stack).take (ts.map Grammar.Tree.root).length).map (·.2)).reverse = ts := by
    rw [List.length_map, hlength, List.take_left, ← List.reverse_reverse ts, ← hfs]
  have hdrop : (fs ++ stack).drop (ts.map Grammar.Tree.root).length = stack := by
    rw [List.length_map, hlength, List.drop_left]
  unfold reduce
  dsimp only
  rw [htake, hdrop, hs]
  rfl

/-- A reduction makes the stack lighter. -/
private theorem weight_reduced {fs stack : List Frame} {c : Category} {ts : List Tree} {s : Nat} (hts : ts ≠ [])
    (hc : (⟨c, ts.map Grammar.Tree.root⟩ : Production Terminal Category) ∈ productions)
    (hfs : fs.map Prod.snd = ts.reverse) : weight ((s, .node c ts) :: stack) < weight (fs ++ stack) := by
  have hrank := rank_le (.category c)
  match fs, hfs with
  | [], h => exact absurd (List.reverse_eq_nil_iff.1 h.symm) hts
  | [(s', t)], h =>
    have ht : ts = [t] := by rw [← List.reverse_reverse ts, ← h]; rfl
    rw [ht] at hc
    have hlt : rank t.root < rank (.category c) := rank_lt_of_mem hc
    show (stack.length + 1) * (Category.count + 1) + (Category.count - rank (.category c)) <
      (stack.length + 1) * (Category.count + 1) + (Category.count - rank t.root)
    omega
  | (s', t) :: (s'', t') :: fs, h =>
    simp only [List.cons_append, weight, List.length_cons, List.length_append, Category.count]
    omega

/-- Where the root of the tree is expected, its tokens are taken, and the tree is put on the stack. -/
def IsTaken (t : Tree) : Prop :=
  ∀ (stack : List Frame) (i : Item) (a : Terminal) (rest : List Piece) (toks : List (Token Terminal)) (tree : Tree),
    Expects (topState stack) i a → unread i = t.root :: rest → MayBegin (firstKind toks) a rest →
    ∃ s, Expects s (next i) a ∧ (Accepts ((s, t) :: stack) toks tree → Accepts stack (t.tokens ++ toks) tree)

/-- Where the roots of the trees are what is left of an item, the tokens of the trees are taken, and the trees are put
on the stack. -/
def AreTaken (ts : List Tree) : Prop :=
  ∀ (stack : List Frame) (i : Item) (toks : List (Token Terminal)) (tree : Tree),
    Expects (topState stack) i (firstKind toks) → unread i = ts.map Grammar.Tree.root →
    ∃ fs : List Frame, fs.map Prod.snd = ts.reverse ∧
      Expects (topState (fs ++ stack)) { i with dot := i.dot + ts.length } (firstKind toks) ∧
      (Accepts (fs ++ stack) toks tree → Accepts stack (Grammar.Tree.tokensAll ts ++ toks) tree)

private theorem isTaken_leaf (token : Token Terminal) : IsTaken (.leaf token) := by
  intro stack i a rest toks tree hi hu _
  obtain ⟨s, haction, hs⟩ := hi.shift hu
  exact ⟨s, hs, fun h => Accepts.of_shift haction h⟩

/-- Below a node a production is read in full, and then reduced. -/
private theorem isTaken_node {c : Category} {ts : List Tree} (hts : AreTaken ts) (hne : ts ≠ [])
    (hp : (⟨c, ts.map Grammar.Tree.root⟩ : Production Terminal Category) ∈ productions) : IsTaken (.node c ts) := by
  intro stack i a rest toks tree hi hu hrest
  obtain ⟨n, hn⟩ := List.mem_iff_getElem?.1 hp
  have hopen : Expects (topState stack) ⟨n + 1, 0⟩ (firstKind toks) := hi.opens hn hu hrest
  have hsymbols : ruleSymbols (n + 1) = ts.map Grammar.Tree.root := by
    rw [ruleSymbols, hn]
    rfl
  obtain ⟨fs, hfs, hlast, hforest⟩ := hts stack ⟨n + 1, 0⟩ toks tree hopen hsymbols
  obtain ⟨s, hmove, hs⟩ := hi.move hu
  have hread : unread ⟨n + 1, 0 + ts.length⟩ = [] := by
    rw [unread, hsymbols]
    simp
  refine ⟨s, hs, fun h => hforest ?_⟩
  exact Accepts.of_reduce (hlast.finish hread) hn (reduce_append hfs hmove) (weight_reduced hne hp hfs) h

private theorem areTaken_nil : AreTaken [] := fun _ _ _ _ hi _ => ⟨[], rfl, hi, id⟩

private theorem areTaken_cons {t : Tree} {ts : List Tree} (ht : IsTaken t) (hts : AreTaken ts)
    (hd : Tree.DeriveAll ts) : AreTaken (t :: ts) := by
  intro stack i toks tree hi hu
  obtain ⟨s, hs, htree⟩ := ht stack i _ _ (Grammar.Tree.tokensAll ts ++ toks) tree hi hu (mayBegin_of_derives hd toks)
  obtain ⟨fs, hfs, hlast, hforest⟩ := hts ((s, t) :: stack) (next i) toks tree hs (unread_next hu)
  refine ⟨fs ++ [(s, t)], by simp [hfs], ?_, fun h => ?_⟩
  · have hdot : { i with dot := i.dot + (t :: ts).length } = { next i with dot := (next i).dot + ts.length } := by
      simp [next, Nat.add_assoc, Nat.add_comm]
    rw [List.append_assoc, hdot]
    exact hlast
  · rw [List.append_assoc] at h
    show Accepts stack (t.tokens ++ Grammar.Tree.tokensAll ts ++ toks) tree
    rw [List.append_assoc]
    exact htree (hforest h)

mutual
theorem isTaken_of_derives : (t : Tree) → Tree.Derives t → IsTaken t
  | .leaf token, _ => isTaken_leaf token
  | .node _ ts, h => isTaken_node (areTaken_of_deriveAll ts h.2.2) h.1 h.2.1

private theorem areTaken_of_deriveAll : (ts : List Tree) → Tree.DeriveAll ts → AreTaken ts
  | [], _ => areTaken_nil
  | t :: ts, h => areTaken_cons (isTaken_of_derives t h.1) (areTaken_of_deriveAll ts h.2) h.2
end

/-- The tokens of a document are taken, and give its tree. -/
theorem accepts_of_derives {t : Tree} (ht : Tree.Derives t) (hroot : t.root = .category .document) :
    Accepts [] t.tokens t := by
  obtain ⟨s, hs, htree⟩ := isTaken_of_derives t ht [] ⟨0, 0⟩ .stop [] [] t expects_start
    (by rw [hroot]; rfl) (mayBegin_nil .stop)
  rw [List.append_nil] at htree
  refine htree fun fuel hfuel => ?_
  obtain ⟨fuel, rfl⟩ : ∃ n, fuel = n + 1 := ⟨fuel - 1, by omega⟩
  have haccept : automaton.action? thrift s .stop = some .accept := hs.finish rfl
  rw [takeAll, take_of_accept haccept]

/-- No tokens at all are taken as the document that derives nothing. -/
theorem takeAll_nil : takeAll (takeFuel []) [] [] = some (.node .document []) := by
  have hp : (⟨.document, []⟩ : Production Terminal Category) ∈ productions := by decide
  obtain ⟨n, hn⟩ := List.mem_iff_getElem?.1 hp
  have hopen : Expects (topState []) ⟨n + 1, 0⟩ .stop := expects_start.opens hn rfl (mayBegin_nil .stop)
  have hread : unread ⟨n + 1, 0⟩ = [] := by
    rw [unread, ruleSymbols, hn]
    rfl
  obtain ⟨s, hmove, hs⟩ := expects_start.move rfl
  have hreduced : reduce [] ⟨.document, []⟩ = some [(s, .node .document [])] :=
    @reduce_append [] [] .document [] s rfl hmove
  have haccept : automaton.action? thrift s .stop = some .accept := hs.finish rfl
  rw [takeAll, show takeFuel [] = 88 + 1 + 1 from rfl, take_of_reduce (hopen.finish hread) hn hreduced,
    take_of_accept haccept]

end ThriftGateway.Idl
