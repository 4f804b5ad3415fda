import ThriftGateway.Proofs.Idl.Spelling

/-!
# Trees of lexemes

`Reads c ls P` says that tokens for the lexemes `ls` make a parse tree of category `c`, and that such a tree satisfies
`P`; `ReadsAll` says this of the symbols of a right-hand side.  Right-hand sides are put together from their symbols
(`ReadsAll.word`, `ReadsAll.tree`), nodes from right-hand sides (`Reads.node`), and nodes of list categories from their
elements (`Reads.chain`).
-/

namespace ThriftGateway.Idl

open Grammar (Part Production Token)

/-- The tokens stand for the lexemes, on the first line. -/
structure Stand (toks : List (Token Terminal)) (ls : List Lexeme) : Prop where
  lexemes : toks.map Lexeme.ofToken = ls
  line : ∀ token ∈ toks, token.start.line = 1

private theorem Stand.of_append {toks : List (Token Terminal)} {ls ls' : List Lexeme} (h : Stand toks (ls ++ ls')) :
    ∃ us vs, toks = us ++ vs ∧ Stand us ls ∧ Stand vs ls' := by
  obtain ⟨us, vs, rfl, hus, hvs⟩ := List.map_eq_append_iff.1 h.lexemes
  refine ⟨us, vs, rfl, ⟨hus, fun token htoken => ?_⟩, ⟨hvs, fun token htoken => ?_⟩⟩
  · exact h.line token (List.mem_append_left _ htoken)
  · exact h.line token (List.mem_append_right _ htoken)

/-- The right-hand sides of a category. -/
def rightSides (c : Category) : List (List Piece) := (alternatives c).flatMap Part.expand

theorem mem_productions {c : Category} {ss : List Piece} (h : ss ∈ rightSides c) :
    (⟨c, ss⟩ : Production Terminal Category) ∈ productions := by
  obtain ⟨parts, hparts, hss⟩ := List.mem_flatMap.1 h
  refine List.mem_flatMap.2 ⟨c, List.mem_of_getElem? (categories_number c), ?_⟩
  exact List.mem_flatMap.2 ⟨parts, hparts, List.mem_map.2 ⟨ss, hss, rfl⟩⟩

/-! ### Lines -/

mutual
theorem first?_eq_head? : (t : Tree) → t.first? = t.tokens.head?
  | .leaf _ => rfl
  | .node _ ts => firstOf?_eq_head? ts

private theorem firstOf?_eq_head? : (ts : List Tree) →
    Grammar.Tree.firstOf? ts = (Grammar.Tree.tokensAll ts).head?
  | [] => rfl
  | t :: ts => by
    rw [Grammar.Tree.firstOf?, Grammar.Tree.tokensAll, List.head?_append, first?_eq_head? t, firstOf?_eq_head? ts]
end

/-- A tree whose tokens are on the first line begins there. -/
private theorem line_of_derives {t : Tree} (ht : Tree.Derives t) (h : ∀ token ∈ t.tokens, token.start.line = 1) :
    t.line = 1 := by
  obtain ⟨token, toks, htokens, -⟩ := firstOf_root 0 [] t ht
  unfold Tree.line
  rw [first?_eq_head?, htokens]
  exact h token (htokens ▸ List.mem_cons_self)

/-! ### Trees and right-hand sides -/

/-- Tokens for the lexemes make a node of the category, and such a node satisfies `P`. -/
def Reads (c : Category) (ls : List Lexeme) (P : Tree → Prop) : Prop :=
  (∀ l ∈ ls, l.IsSound) ∧ ∀ toks, Stand toks ls → ∃ ts, Tree.Derives (.node c ts) ∧
    numbersReadable (.node c ts) = true ∧ Grammar.Tree.tokens (.node c ts) = toks ∧ P (.node c ts)

/-- Tokens for the lexemes make trees of the symbols, and such trees satisfy `P`. -/
def ReadsAll (ss : List Piece) (ls : List Lexeme) (P : List Tree → Prop) : Prop :=
  (∀ l ∈ ls, l.IsSound) ∧ ∀ toks, Stand toks ls → ∃ ts, ts.map Grammar.Tree.root = ss ∧ Tree.DeriveAll ts ∧
    numbersReadableAll ts = true ∧ Grammar.Tree.tokensAll ts = toks ∧ P ts

theorem Reads.imp {c : Category} {ls : List Lexeme} {P Q : Tree → Prop} (h : Reads c ls P) (hpq : ∀ t, P t → Q t) :
    Reads c ls Q := by
  refine ⟨h.1, fun toks htoks => ?_⟩
  obtain ⟨ts, hderive, hreadable, htokens, hts⟩ := h.2 toks htoks
  exact ⟨ts, hderive, hreadable, htokens, hpq _ hts⟩

theorem Reads.congr {c : Category} {ls ls' : List Lexeme} {P : Tree → Prop} (h : Reads c ls P) (hls : ls = ls') :
    Reads c ls' P := hls ▸ h

theorem ReadsAll.imp {ss : List Piece} {ls : List Lexeme} {P Q : List Tree → Prop} (h : ReadsAll ss ls P)
    (hpq : ∀ ts, P ts → Q ts) : ReadsAll ss ls Q := by
  refine ⟨h.1, fun toks htoks => ?_⟩
  obtain ⟨ts, hroots, hderive, hreadable, htokens, hts⟩ := h.2 toks htoks
  exact ⟨ts, hroots, hderive, hreadable, htokens, hpq _ hts⟩

theorem ReadsAll.nil : ReadsAll [] [] (· = []) := by
  refine ⟨by simp, fun toks h => ⟨[], rfl, trivial, rfl, ?_, rfl⟩⟩
  exact (List.map_eq_nil_iff.1 h.lexemes).symm

section

variable {ss : List Piece} {ls : List Lexeme} {P : List Tree → Prop}

private theorem ReadsAll.leaf {l : Lexeme} (hl : l.IsSound) (h : ReadsAll ss ls P) :
    ReadsAll (.terminal l.kind :: ss) (l :: ls) fun ts =>
      ∃ token rest, ts = .leaf token :: rest ∧ Lexeme.ofToken token = l ∧ P rest := by
  refine ⟨by simpa using ⟨hl, h.1⟩, fun toks htoks => ?_⟩
  obtain ⟨token, more, rfl, htoken, hmore⟩ := List.map_eq_cons_iff.1 htoks.lexemes
  obtain ⟨ts, hroots, hderive, hreadable, htokens, hts⟩ :=
    h.2 more ⟨hmore, fun t ht => htoks.line t (List.mem_cons_of_mem _ ht)⟩
  have hkind : token.kind = l.kind := by
    rw [← htoken, Lexeme.ofToken]
    split
    · assumption
    · rfl
  refine ⟨.leaf token :: ts, ?_, ⟨trivial, hderive⟩, hreadable, ?_, token, ts, rfl, htoken, hts⟩
  · rw [List.map_cons, hroots, Grammar.Tree.root, hkind]
  · rw [Grammar.Tree.tokensAll, htokens]
    rfl

/-- A word, and what follows it. -/
theorem ReadsAll.word {k : Terminal} {text : String} (hk : (Lexeme.word k text).IsSound) (h : ReadsAll ss ls P) :
    ReadsAll (.terminal k :: ss) (.word k text :: ls) fun ts =>
      ∃ token rest, ts = .leaf token :: rest ∧ (token.kind = k ∧ token.text = text) ∧ P rest := by
  refine (h.leaf hk).imp fun ts => ?_
  rintro ⟨token, rest, rfl, htoken, hrest⟩
  refine ⟨token, rest, rfl, ?_, hrest⟩
  unfold Lexeme.ofToken at htoken
  split at htoken
  · cases htoken
  · exact ⟨congrArg Lexeme.kind htoken, by cases htoken; rfl⟩

/-- A text in quotes, and what follows it. -/
theorem ReadsAll.quoted {text : String} (htext : (Lexeme.quoted text).IsSound) (h : ReadsAll ss ls P) :
    ReadsAll (.terminal .literal :: ss) (.quoted text :: ls) fun ts =>
      ∃ token rest, ts = .leaf token :: rest ∧ (token.kind = .literal ∧ unquote token.text = text) ∧ P rest := by
  refine (h.leaf htext).imp fun ts => ?_
  rintro ⟨token, rest, rfl, htoken, hrest⟩
  refine ⟨token, rest, rfl, ?_, hrest⟩
  unfold Lexeme.ofToken at htoken
  split at htoken
  · exact ⟨by assumption, by cases htoken; rfl⟩
  · cases htoken

/-- A tree, and what follows it. -/
theorem ReadsAll.tree {c : Category} {ls' : List Lexeme} {Q : Tree → Prop} (ht : Reads c ls' Q)
    (h : ReadsAll ss ls P) :
    ReadsAll (.category c :: ss) (ls' ++ ls) fun ts =>
      ∃ us rest, ts = .node c us :: rest ∧ Q (.node c us) ∧ P rest := by
  refine ⟨fun l hl => (List.mem_append.1 hl).elim (ht.1 l) (h.1 l), fun toks htoks => ?_⟩
  obtain ⟨toks, more, rfl, hfirst, hmore⟩ := htoks.of_append
  obtain ⟨us, hus, husReadable, husTokens, hq⟩ := ht.2 toks hfirst
  obtain ⟨ts, hroots, hderive, hreadable, htokens, hts⟩ := h.2 more hmore
  refine ⟨.node c us :: ts, ?_, ⟨hus, hderive⟩, ?_, ?_, us, ts, rfl, hq, hts⟩
  · rw [List.map_cons, hroots, Grammar.Tree.root]
  · rw [numbersReadableAll, husReadable, hreadable, Bool.and_self]
  · rw [Grammar.Tree.tokensAll, husTokens, htokens]

private theorem deriveAll_append : {ts us : List Tree} → Tree.DeriveAll ts → Tree.DeriveAll us →
    Tree.DeriveAll (ts ++ us)
  | [], _, _, hus => hus
  | _ :: _, _, hts, hus => ⟨hts.1, deriveAll_append hts.2 hus⟩

private theorem numbersReadableAll_append (ts us : List Tree) :
    numbersReadableAll (ts ++ us) = (numbersReadableAll ts && numbersReadableAll us) := by
  induction ts with
  | nil => rfl
  | cons t ts ih => rw [List.cons_append, numbersReadableAll, numbersReadableAll, ih, Bool.and_assoc]

/-- A part, and what follows it. -/
theorem ReadsAll.append {ss' : List Piece} {ls' : List Lexeme} {Q : List Tree → Prop} (hfront : ReadsAll ss' ls' Q)
    (h : ReadsAll ss ls P) :
    ReadsAll (ss' ++ ss) (ls' ++ ls) fun ts => ∃ front rest, ts = front ++ rest ∧ Q front ∧ P rest := by
  refine ⟨fun l hl => (List.mem_append.1 hl).elim (hfront.1 l) (h.1 l), fun toks htoks => ?_⟩
  obtain ⟨toks, more, rfl, hfirst, hmore⟩ := htoks.of_append
  obtain ⟨us, husRoots, hus, husReadable, husTokens, hq⟩ := hfront.2 toks hfirst
  obtain ⟨ts, hroots, hderive, hreadable, htokens, hts⟩ := h.2 more hmore
  refine ⟨us ++ ts, ?_, deriveAll_append hus hderive, ?_, ?_, us, ts, rfl, hq, hts⟩
  · rw [List.map_append, husRoots, hroots]
  · rw [numbersReadableAll_append, husReadable, hreadable, Bool.and_self]
  · rw [tokensAll_append, husTokens, htokens]

/-- Trees that are left out or follow one of a category. -/
def Optionally (c : Category) (Q : Option Tree → Prop) (P : List Tree → Prop) (ts : List Tree) : Prop :=
  ∃ u rest, ts = Option.toList u ++ rest ∧ (∀ t ∈ u, ∃ us, t = .node c us) ∧ Q u ∧ P rest

/-- A part that may be missing, and what follows it. -/
theorem ReadsAll.optional {α : Type} {c : Category} {lexemes : α → List Lexeme} {Q : α → Tree → Prop} {o : Option α}
    (ho : ∀ a ∈ o, Reads c (lexemes a) (Q a)) (h : ReadsAll ss ls P) :
    ReadsAll (if o.isSome then .category c :: ss else ss) (o.elim [] lexemes ++ ls)
      (Optionally c (Option.Rel Q o) P) := by
  cases o with
  | none => exact h.imp fun ts hts => ⟨none, ts, rfl, by simp, .none, hts⟩
  | some a =>
    refine (h.tree (ho a rfl)).imp fun ts => ?_
    rintro ⟨us, rest, rfl, hus, hrest⟩
    exact ⟨some (.node c us), rest, rfl, by simp, .some hus, hrest⟩

/-- A tree alone. -/
theorem ReadsAll.single {c : Category} {Q : Tree → Prop} (h : Reads c ls Q) :
    ReadsAll [.category c] ls fun ts => ∃ us, ts = [.node c us] ∧ Q (.node c us) := by
  have hsingle := ReadsAll.nil.tree h
  rw [List.append_nil] at hsingle
  refine hsingle.imp fun ts => ?_
  rintro ⟨us, _, rfl, hus, rfl⟩
  exact ⟨us, rfl, hus⟩

end

section

variable {c : Category} {ss : List Piece} {ls : List Lexeme} {P : List Tree → Prop} {Q : Tree → Prop}

/-- Only the document can be empty. -/
private theorem ne_nil_of_mem_rightSides {c : Category} (hc : c ≠ .document) {ss : List Piece} (h : ss ∈ rightSides c) :
    ss ≠ [] := by
  have hall : ∀ c ∈ categories, c ≠ .document → [] ∉ rightSides c := by decide
  rintro rfl
  exact hall c (List.mem_of_getElem? (categories_number c)) hc h

/-- The trees of a right-hand side make a node, where a number of a field has to be readable. -/
theorem Reads.node_of_readable (h : ReadsAll ss ls P) (hp : ss ∈ rightSides c) (hne : ss ≠ [])
    (hid : ∀ ts, P ts → (c ≠ .fieldId || (fieldIdOf (.node c ts)).isSome) = true)
    (hq : ∀ ts, Tree.line (.node c ts) = 1 → P ts → Q (.node c ts)) : Reads c ls Q := by
  refine ⟨h.1, fun toks htoks => ?_⟩
  obtain ⟨ts, hroots, hderive, hreadable, htokens, hts⟩ := h.2 toks htoks
  have hnode : Tree.Derives (.node c ts) := by
    refine ⟨?_, by rw [hroots]; exact mem_productions hp, hderive⟩
    rintro rfl
    exact hne hroots.symm
  refine ⟨ts, hnode, ?_, htokens, hq ts (line_of_derives hnode ?_) hts⟩
  · rw [numbersReadable, hreadable, hid ts hts, Bool.and_self]
  · rw [Grammar.Tree.tokens, htokens]
    exact htoks.line

/-- The trees of a right-hand side make a node. -/
theorem Reads.node (h : ReadsAll ss ls P) (hq : ∀ ts, Tree.line (.node c ts) = 1 → P ts → Q (.node c ts))
    (hp : ss ∈ rightSides c) (hc : c ≠ .document ∧ c ≠ .fieldId) : Reads c ls Q :=
  Reads.node_of_readable h hp (ne_nil_of_mem_rightSides hc.1 hp) (fun _ _ => by simp [hc.2]) hq

end

/-! ### List categories -/

/-- A tree of a left-recursive list category whose elements are related to the items. -/
inductive Tree.IsChain {α : Type} (list : Category) (R : α → Tree → Prop) : List α → Tree → Prop
  | one {a : α} {t : Tree} : R a t → IsChain list R [a] (.node list [t])
  | snoc {as : List α} {a : α} {l t : Tree} : IsChain list R as l → R a t →
      IsChain list R (as ++ [a]) (.node list [l, t])

/-- Items that can be read one after the other make a tree of a list category. -/
theorem Reads.chain {α : Type} (list : Category) (element : α → Category) {lexemes : α → List Lexeme}
    {P : α → Tree → Prop} (hlist : list ≠ .document ∧ list ≠ .fieldId)
    (hone : ∀ a, [.category (element a)] ∈ rightSides list)
    (hmore : ∀ a, [.category list, .category (element a)] ∈ rightSides list) (as : List α) (hne : as ≠ [])
    (h : ∀ a ∈ as, Reads (element a) (lexemes a) (P a)) :
    Reads list (as.flatMap lexemes)
      (Tree.IsChain list (fun a t => (∃ us, t = .node (element a) us) ∧ P a t) as) := by
  obtain ⟨as, rfl⟩ : ∃ bs : List α, as = bs.reverse := ⟨as.reverse, (List.reverse_reverse as).symm⟩
  induction as with
  | nil => exact absurd rfl hne
  | cons a as ih =>
    have ha : Reads (element a) (lexemes a) (P a) := h a (by simp)
    by_cases has : as = []
    · subst has
      refine (Reads.node (ReadsAll.single ha) ?_ (hone a) hlist).congr (by simp)
      rintro _ - ⟨us, rfl, hus⟩
      exact .one ⟨⟨us, rfl⟩, hus⟩
    · have hbefore := ih (by simpa using has) fun b hb =>
        h b (List.mem_reverse.2 (List.mem_cons_of_mem _ (List.mem_reverse.1 hb)))
      refine (Reads.node ((ReadsAll.single ha).tree hbefore) ?_ (hmore a) hlist).congr (by simp)
      rintro _ - ⟨ls, _, rfl, hls, us, rfl, hus⟩
      rw [List.reverse_cons]
      exact .snoc hls ⟨⟨us, rfl⟩, hus⟩

/-- No tree for no items, or a tree of a list category whose elements are related to the items. -/
def Tree.IsList {α : Type} (list : Category) (R : α → Tree → Prop) (as : List α) : Option Tree → Prop
  | none => as = []
  | some t => Tree.IsChain list R as t

/-- Items one after the other, perhaps none, and what follows them. -/
theorem ReadsAll.many {α : Type} (list : Category) (element : α → Category) {lexemes : α → List Lexeme}
    {P : α → Tree → Prop} {ss : List Piece} {ls : List Lexeme} {Q : List Tree → Prop}
    (hlist : list ≠ .document ∧ list ≠ .fieldId)
    (hone : ∀ a, [.category (element a)] ∈ rightSides list)
    (hmore : ∀ a, [.category list, .category (element a)] ∈ rightSides list) (as : List α)
    (has : ∀ a ∈ as, Reads (element a) (lexemes a) (P a)) (h : ReadsAll ss ls Q) :
    ReadsAll (if as.isEmpty then ss else .category list :: ss) (as.flatMap lexemes ++ ls)
      (Optionally list (Tree.IsList list (fun a t => (∃ us, t = .node (element a) us) ∧ P a t) as) Q) := by
  by_cases hne : as = []
  · subst hne
    exact h.imp fun ts hts => ⟨none, ts, rfl, by simp, rfl, hts⟩
  · rw [if_neg (by simpa using hne)]
    refine (h.tree (Reads.chain list element hlist hone hmore as hne has)).imp fun ts => ?_
    rintro ⟨us, rest, rfl, hus, hrest⟩
    exact ⟨some (.node list us), rest, rfl, by simp, hus, hrest⟩

/-! ### What is read from the trees below a node -/

section

variable {c : Category} {ts : List Tree} {k : Category}

@[simp] theorem child?_nil : (Grammar.Tree.node c [] : Tree).child? k = none := rfl

@[simp] theorem child?_leaf (token : Token Terminal) :
    (Grammar.Tree.node c (.leaf token :: ts)).child? k = (Grammar.Tree.node c ts).child? k := rfl

@[simp] theorem child?_node (d : Category) (us : List Tree) :
    (Grammar.Tree.node c (.node d us :: ts)).child? k =
      if d = k then some (.node d us) else (Grammar.Tree.node c ts).child? k := by
  unfold Grammar.Tree.child? Grammar.Tree.children
  by_cases hd : d = k <;> simp [hd]

theorem child?_toList {d : Category} {u : Option Tree} (hu : ∀ t ∈ u, ∃ us, t = .node d us) :
    (Grammar.Tree.node c (u.toList ++ ts)).child? k =
      if d = k then u.or ((Grammar.Tree.node c ts).child? k) else (Grammar.Tree.node c ts).child? k := by
  cases u with
  | none => simp
  | some t =>
    obtain ⟨us, rfl⟩ := hu t rfl
    simp

@[simp] theorem leaves_nil : (Grammar.Tree.node c [] : Tree).leaves = [] := rfl

@[simp] theorem leaves_leaf (token : Token Terminal) :
    (Grammar.Tree.node c (.leaf token :: ts)).leaves = token :: (Grammar.Tree.node c ts).leaves := rfl

@[simp] theorem leaves_node (d : Category) (us : List Tree) :
    (Grammar.Tree.node c (.node d us :: ts)).leaves = (Grammar.Tree.node c ts).leaves := rfl

theorem leaves_toList {d : Category} {u : Option Tree} (hu : ∀ t ∈ u, ∃ us, t = .node d us) :
    (Grammar.Tree.node c (u.toList ++ ts)).leaves = (Grammar.Tree.node c ts).leaves := by
  cases u with
  | none => rfl
  | some t =>
    obtain ⟨us, rfl⟩ := hu t rfl
    rfl

end

/-- What is read from the elements of a list. -/
theorem Tree.IsList.filterMap_listed {α β : Type} {list : Category} {R : α → Tree → Prop} {as : List α}
    {u : Option Tree} (h : Tree.IsList list R as u) {t : Tree} (ht : t.child? list = u) {f : Tree → Option β}
    {g : α → β}
    (hR : ∀ a t, R a t → ∃ c us, t = .node c us ∧ c ≠ list ∧ c ≠ .separator ∧ f t = some (g a)) :
    (t.listed list).filterMap f = as.map g := by
  unfold Tree.listed
  rw [ht]
  cases u with
  | none =>
    rw [show as = [] from h]
    rfl
  | some l =>
    rw [Option.elim_some]
    clear ht
    have hchain : Tree.IsChain list R as l := h
    clear h
    induction hchain with
    | one ha =>
      obtain ⟨c, us, rfl, hc, hseparator, hf⟩ := hR _ _ ha
      simp [Grammar.Tree.elements, Grammar.Tree.elementsAll, hc, hseparator, hf]
    | @snoc as a l t _ ha ih =>
      obtain ⟨c, us, rfl, hc, hseparator, hf⟩ := hR _ _ ha
      have helements : Grammar.Tree.elements list (.node list [l, .node c us]) = l.elements list ++ [.node c us] := by
        simp [Grammar.Tree.elements, Grammar.Tree.elementsAll, hc]
      rw [helements, List.filter_append, List.filterMap_append, ih]
      simp [hseparator, hf]

end ThriftGateway.Idl
