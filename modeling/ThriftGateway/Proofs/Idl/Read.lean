import ThriftGateway.Proofs.Idl.Leading
import ThriftGateway.Proofs.Idl.Numerals
import ThriftGateway.Proofs.Idl.Writing

/-!
# Trees that are read from texts

The tokens of a parse tree are texts of their terminals, on lines that are counted from 1 (`Tree.isRead_of_parseTree`)
and that the text has (`Tree.lines_of_parseTree`).  What the grammar has below every node of a category is there, and is
such a text or such a tree again (`Tree.IsRead.isText_leafText`, `Tree.IsRead.exists_child`).
-/

namespace ThriftGateway.Idl

open Grammar (Position Token)

/-! ### Tokens -/

/-- A piece that is no blank or comment is a text of its terminal. -/
private theorem IsPiece.isText {t : Token Terminal} {x piece y : List Char} (h : IsPiece t x piece y)
    (hkind : t.kind.isIgnored = false) : t.kind.IsText t.text := by
  have htext : t.text.toList = piece := (congrArg (fun t => t.text.toList) h.token).trans String.toList_ofList
  rw [Terminal.IsText, htext]
  have hfits := h.fits
  by_cases hliteral : t.kind = .literal
  · rw [hliteral] at hfits ⊢
    have := match?_append_of_lt (by simp) hfits (Nat.le_refl _) (by simp [Terminal.isIgnored]) []
    rwa [List.append_nil] at this
  · by_cases hbase : t.kind = .baseType
    · rw [hbase] at hfits ⊢
      obtain hover | ⟨hnone, -⟩ := matchBaseType_overruns piece y
      · exact hover.eq_some hfits (Nat.le_refl _)
      · rw [show Terminal.match? .baseType (piece ++ y) = matchBaseType (piece ++ y) from rfl, hnone] at hfits
        cases hfits
    · have hoverruns : Overruns t.kind.match? piece y := by
        refine match?_overruns ?_ h.ne_nil y
        intro hmem
        simp only [List.mem_cons, List.not_mem_nil, or_false] at hmem
        rcases hmem with hk | hk | hk | hk | hk
        · rw [hk] at hkind
          cases hkind
        · exact hliteral hk
        · rw [hk] at hkind
          cases hkind
        · rw [hk] at hkind
          cases hkind
        · exact hbase hk
      exact hoverruns.eq_some hfits (Nat.le_refl _)

/-- A text in quotes has no quote of its kind but those around it. -/
theorem exists_of_matchLiteral {cs : List Char} (h : matchLiteral cs = some cs.length) :
    ∃ q ∈ ['"', '\''], ∃ front, cs = q :: (front ++ [q]) ∧ q ∉ front := by
  have hquoted : ∀ {q : Char} {cs : List Char}, matchQuoted q cs = some (cs.length + 1) →
      ∃ front, cs = front ++ [q] ∧ q ∉ front := by
    intro q cs h
    obtain ⟨front, behind, rfl, hfront, hspan, hdrop⟩ := exists_span (fun c => decide (c ≠ q)) cs
    unfold matchQuoted at h
    dsimp only at h
    rw [hdrop, hspan, List.length_append] at h
    cases behind with
    | nil => cases h
    | cons c behind =>
      obtain rfl : behind = [] := by
        have hlength : front.length + 2 = front.length + (behind.length + 1) + 1 := Option.some.inj h
        exact List.length_eq_zero_iff.1 (by omega)
      -- the span ends at the quote
      have hc : c = q := by
        by_contra hne
        unfold spanLength at hspan
        rw [List.takeWhile_append_of_pos hfront, List.takeWhile_cons_of_pos (by simpa using hne),
          List.length_append] at hspan
        exact Nat.succ_ne_self _ hspan
      exact ⟨front, by rw [hc], fun hq => by simpa using hfront q hq⟩
  unfold matchLiteral at h
  split at h
  · obtain ⟨front, rfl, hq⟩ := hquoted h
    exact ⟨'"', by simp, front, rfl, hq⟩
  · obtain ⟨front, rfl, hq⟩ := hquoted h
    exact ⟨'\'', by simp, front, rfl, hq⟩
  · cases h

/-- A token does not end with a line feed. -/
private theorem exists_append_of_isText {k : Terminal} (hkind : k.isIgnored = false) {text : String}
    (h : k.IsText text) : ∃ front c, text.toList = front ++ [c] ∧ c ≠ '\n' := by
  have h : k.match? text.toList = some text.toList.length := h
  by_cases hliteral : k = .literal
  · rw [hliteral] at h
    obtain ⟨q, hq, front, htext, -⟩ := exists_of_matchLiteral h
    refine ⟨q :: front, q, htext, ?_⟩
    rintro rfl
    simp at hq
  · have hne := List.length_pos_iff.1 (match?_bounds h).1
    refine ⟨text.toList.dropLast, text.toList.getLast hne, (List.dropLast_concat_getLast hne).symm, fun hfeed => ?_⟩
    have hk : k ∉ [.lineComment, .literal, .blockComment, .blank] := by
      intro hmem
      simp only [List.mem_cons, List.not_mem_nil, or_false] at hmem
      rcases hmem with rfl | rfl | rfl | rfl
      · cases hkind
      · exact hliteral rfl
      · cases hkind
      · cases hkind
    -- no other token depends on a line feed at its end, so it would be matched without
    rw [← List.dropLast_concat_getLast hne, hfeed, match?_append (atGap_cons (by decide) []) hk] at h
    have hfront := (match?_bounds h).2
    rw [List.length_append] at hfront
    exact Nat.not_succ_le_self _ hfront

namespace Tree

/-- A tree that is derived from texts of terminals. -/
structure IsRead (t : Tree) : Prop where
  derives : Derives t
  lines : ∀ token ∈ t.tokens, 0 < token.start.line
  texts : ∀ token ∈ t.tokens, token.kind.IsText token.text

/-- A parse tree is such a tree, unless it is that of a text without tokens. -/
theorem isRead_of_parseTree {text : List Char} {parsed : Parsed} (h : parseTree text = .ok parsed) :
    (parsed.tree.IsRead ∨ parsed.tree = .node .document []) ∧ parsed.tree.root = .category .document := by
  obtain ⟨hderived, hroot, pieces, hlayout⟩ := exists_layout h
  refine ⟨hderived.imp_left fun hderives => ⟨hderives, fun token ht => ?_, fun token ht => ?_⟩, hroot⟩
  · exact (hlayout.laid.lines (hlayout.mem_tokens.1 ht).1).1
  · obtain ⟨hpiece, hkind⟩ := hlayout.mem_tokens.1 ht
    obtain ⟨front, behind, hpieces⟩ := List.append_of_mem hpiece
    have hlaid := hlayout.laid
    rw [hpieces] at hlaid
    obtain ⟨m, piece, y, -, hpiece, -⟩ := Laid.split (x := []) hlaid
    exact hpiece.isText hkind

/-- The lines that a token of a parse tree begins and ends on are lines of the text, however these are ended. -/
theorem lines_of_parseTree {text : List Char} {parsed : Parsed} (h : parseTree text = .ok parsed) :
    ∀ token ∈ parsed.tree.tokens,
      1 ≤ token.start.line ∧ token.start.line ≤ token.stop.line ∧ token.stop.line ≤ (Text.lines text).length := by
  obtain ⟨-, -, pieces, hlayout⟩ := exists_layout h
  intro token ht
  obtain ⟨hmem, hkind⟩ := hlayout.mem_tokens.1 ht
  obtain ⟨hfirst, hle⟩ := hlayout.laid.lines hmem
  refine ⟨hfirst, hle, ?_⟩
  obtain ⟨front, behind, rfl⟩ := List.append_of_mem hmem
  obtain ⟨m, piece, y, rfl, hpiece, -⟩ := Laid.split (x := []) hlayout.laid
  obtain ⟨text, c, htext, hc⟩ := exists_append_of_isText hkind (hpiece.isText hkind)
  obtain rfl : piece = text ++ [c] := by
    rw [← htext, hpiece.token]
    exact String.toList_ofList.symm
  have hcount := Text.count_lt_length_lines (m ++ text) hc y
  rw [hpiece.stop, advance_origin, List.nil_append, ← List.append_assoc]
  show (m ++ text ++ [c]).count '\n' + 1 ≤ _
  rw [List.count_append, List.count_eq_zero_of_not_mem (show '\n' ∉ [c] by simpa using hc.symm),
    show m ++ (text ++ [c] ++ y) = m ++ text ++ c :: y by simp]
  exact hcount

/-! ### Below a node -/

private theorem mem_rightSides {c : Category} {ss : List Piece}
    (h : (⟨c, ss⟩ : Grammar.Production Terminal Category) ∈ productions) :
    ss ∈ rightSides c := by
  obtain ⟨k, -, hk⟩ := List.mem_flatMap.1 h
  obtain ⟨parts, hparts, hproduction⟩ := List.mem_flatMap.1 hk
  obtain ⟨symbols, hsymbols, heq⟩ := List.mem_map.1 hproduction
  cases heq
  exact List.mem_flatMap.2 ⟨parts, hparts, hsymbols⟩

private theorem length_leaves_filter (c : Category) (ts : List Tree) (k : Terminal) :
    ((Grammar.Tree.node c ts).leaves.filter fun token => token.kind = k).length =
      (ts.map Grammar.Tree.root).count (.terminal k) := by
  induction ts with
  | nil => rfl
  | cons t ts ih =>
    cases t with
    | leaf token =>
      rw [leaves_leaf, List.map_cons, Grammar.Tree.root, List.count_cons, ← ih, List.filter_cons]
      by_cases hk : token.kind = k
      · simp [hk]
      · simp [hk]
    | node d us =>
      rw [leaves_node, List.map_cons, Grammar.Tree.root, List.count_cons_of_ne (by simp), ih]

theorem any_leaves_iff {c : Category} {ts : List Tree} {k : Terminal} :
    ((Grammar.Tree.node c ts).leaves.any fun token => token.kind = k) = true ↔
      .terminal k ∈ ts.map Grammar.Tree.root := by
  rw [← List.count_pos_iff, ← length_leaves_filter c, List.length_pos_iff_exists_mem, List.any_eq_true]
  exact exists_congr fun token => by rw [List.mem_filter]

private theorem mem_tokens_of_mem_leaves {c : Category} {ts : List Tree} {token : Token Terminal}
    (h : token ∈ (Grammar.Tree.node c ts).leaves) : token ∈ Grammar.Tree.tokens (.node c ts) := by
  obtain ⟨t, ht, htoken⟩ := List.mem_filterMap.1 h
  cases t with
  | leaf token' =>
    obtain rfl := Option.some.inj htoken
    exact mem_tokensAll.2 ⟨_, ht, List.mem_singleton_self _⟩
  | node d us => cases htoken

namespace IsRead

variable {c k : Category} {t : Tree} {ts : List Tree}

theorem line_pos (h : t.IsRead) : 0 < t.line := by
  obtain ⟨token, toks, htokens⟩ := exists_token h.derives
  unfold Tree.line
  rw [first?_eq_head?, htokens]
  exact h.lines token (htokens ▸ List.mem_cons_self)

theorem of_mem (h : IsRead (.node c ts)) (ht : t ∈ ts) : t.IsRead := by
  have htokens : ∀ token ∈ t.tokens, token ∈ Grammar.Tree.tokens (.node c ts) :=
    fun token htoken => mem_tokensAll.2 ⟨t, ht, htoken⟩
  exact ⟨deriveAll_iff.1 h.derives.2.2 t ht, fun token htoken => h.lines token (htokens token htoken),
    fun token htoken => h.texts token (htokens token htoken)⟩

/-- If the terminal stands below the node more than `n` times, the `n`-th of its tokens says one of its texts. -/
theorem isText_of_lt {terminal : Terminal} {n : Nat} (h : IsRead (.node c ts))
    (hn : n < (ts.map Grammar.Tree.root).count (.terminal terminal)) :
    terminal.IsText ((Grammar.Tree.node c ts).leafText terminal n) := by
  rw [← length_leaves_filter c] at hn
  obtain ⟨hleaf, hkind⟩ := List.mem_filter.1 (List.getElem_mem hn)
  have htext := h.texts _ (mem_tokens_of_mem_leaves hleaf)
  rw [of_decide_eq_true hkind] at htext
  rwa [Grammar.Tree.leafText, List.getElem?_eq_getElem hn, Option.elim_some]

/-- The roots of the trees below a node are a right-hand side of its category. -/
theorem roots_mem (h : IsRead (.node c ts)) : ts.map Grammar.Tree.root ∈ rightSides c := mem_rightSides h.derives.2.1

theorem isText_leafText {terminal : Terminal} {n : Nat} (h : IsRead (.node c ts))
    (hc : ∀ symbols ∈ rightSides c, n < symbols.count (.terminal terminal)) :
    terminal.IsText ((Grammar.Tree.node c ts).leafText terminal n) :=
  h.isText_of_lt (hc _ h.roots_mem)

theorem of_child? (h : IsRead (.node c ts)) (ht : (Grammar.Tree.node c ts).child? k = some t) :
    t.IsRead ∧ ∃ us, t = .node k us := by
  refine ⟨h.of_mem (List.mem_of_find?_eq_some ht), ?_⟩
  have hfound := List.find?_some ht
  cases t with
  | leaf token => cases hfound
  | node d us => exact ⟨us, by simpa using hfound⟩

theorem exists_child (h : IsRead (.node c ts)) (hc : ∀ symbols ∈ rightSides c, .category k ∈ symbols) :
    ∃ us, (Grammar.Tree.node c ts).child? k = some (.node k us) ∧ IsRead (.node k us) := by
  obtain ⟨u, hu, hroot⟩ : ∃ u ∈ ts, u.root = .category k := List.mem_map.1 (hc _ h.roots_mem)
  obtain ⟨us, rfl⟩ := exists_of_root hroot
  cases hchild : (Grammar.Tree.node c ts).child? k with
  | none =>
    have hnone := List.find?_eq_none.1 hchild _ hu
    simp at hnone
  | some t =>
    obtain ⟨hread, us, rfl⟩ := h.of_child? hchild
    exact ⟨us, rfl, hread⟩

end IsRead

/-! ### Lists -/

mutual
private theorem mem_tokens_of_mem_elements (list : Category) : (t : Tree) → ∀ e ∈ t.elements list, ∀ token ∈ e.tokens,
    token ∈ t.tokens
  | .leaf token => by simp [Grammar.Tree.elements]
  | .node d ts => by
    rw [Grammar.Tree.elements]
    split
    · exact mem_tokens_of_mem_elementsAll list ts
    · intro e he token htoken
      rwa [List.mem_singleton.1 he] at htoken

private theorem mem_tokens_of_mem_elementsAll (list : Category) : (ts : List Tree) →
    ∀ e ∈ Grammar.Tree.elementsAll list ts, ∀ token ∈ e.tokens, token ∈ Grammar.Tree.tokensAll ts
  | [] => by simp [Grammar.Tree.elementsAll]
  | t :: ts => by
    intro e he token htoken
    rw [Grammar.Tree.elementsAll, List.mem_append] at he
    rw [Grammar.Tree.tokensAll, List.mem_append]
    exact he.imp (fun he => mem_tokens_of_mem_elements list t e he token htoken)
      fun he => mem_tokens_of_mem_elementsAll list ts e he token htoken
end

/-- The elements of a list below a node are trees of the categories of its elements. -/
theorem IsRead.of_mem_listed {c list : Category} {ts : List Tree} {e : Tree} (h : IsRead (.node c ts))
    (hlist : list ∈ [Category.statements, .members, .fields, .functions]) (he : e ∈ listed (.node c ts) list) :
    e.IsRead ∧ ∃ k ∈ elementCategories list, ∃ us, e = .node k us := by
  obtain ⟨he, -⟩ := List.mem_filter.1 he
  cases hchild : (Grammar.Tree.node c ts).child? list with
  | none =>
    rw [hchild] at he
    cases he
  | some l =>
    rw [hchild, Option.elim_some] at he
    obtain ⟨hl, us, rfl⟩ := h.of_child? hchild
    obtain ⟨hderives, k, hk, hroot⟩ := isElement_of_mem_elements hlist _ hl.derives (.inl rfl) e he
    have htokens := mem_tokens_of_mem_elements list _ e he
    exact ⟨⟨hderives, fun token htoken => hl.lines token (htokens token htoken),
      fun token htoken => hl.texts token (htokens token htoken)⟩, k, hk, exists_of_root hroot⟩

theorem IsRead.exists_element {c list k : Category} {ts : List Tree} {e : Tree} (h : IsRead (.node c ts))
    (hlist : list ∈ [Category.statements, .members, .fields, .functions]) (hk : elementCategories list = [k])
    (he : e ∈ listed (.node c ts) list) : ∃ us, e = .node k us ∧ IsRead (.node k us) := by
  obtain ⟨hread, k', hk', us, rfl⟩ := h.of_mem_listed hlist he
  rw [hk, List.mem_singleton] at hk'
  exact ⟨us, by rw [hk'], hk' ▸ hread⟩

end Tree

end ThriftGateway.Idl
