import Mathlib.Data.List.Nodup
import Mathlib.Data.List.Perm.Subperm
import Mathlib.Data.Option.Basic
import ThriftGateway.Proofs.Idl.Described

/-!
# Where described nodes begin and end

Nodes that can have descriptions begin with different tokens (`first?_injOn`), as each begins with a token that is in no
smaller one.  A node that comments behind it can describe may end with a separator; the last token before it is its last
word, and such nodes have different last words (`lastWord?_injOn`).
-/

namespace ThriftGateway.Idl

open Grammar (Token)
open scoped List

/-- Neither a comma nor a semicolon. -/
def Terminal.isWord (k : Terminal) : Bool := k ≠ .comma && k ≠ .semicolon

namespace Tree

/-! ### Nodes in a tree -/

/-- A described node is derived, and its tokens stand together. -/
structure IsNode (u t : Tree) : Prop where
  derives : Derives t
  described : ∃ c, t.root = .category c ∧ c.isDescribed = true
  tokens : t.tokens <:+: u.tokens

mutual
theorem isNode_of_mem_described : (u : Tree) → Derives u → ∀ t ∈ described u, IsNode u t
  | .leaf _, _ => by simp [described]
  | .node c ts, h => by
    intro t ht
    rw [described, List.mem_append] at ht
    rcases ht with ht | ht
    · split at ht
      · rename_i hc
        obtain rfl := List.mem_singleton.1 ht
        exact ⟨h, ⟨c, rfl, hc⟩, List.infix_refl _⟩
      · cases ht
    · obtain ⟨u, hu, hnode⟩ := isNode_of_mem_describedAll ts h.2.2 t ht
      refine ⟨hnode.derives, hnode.described, hnode.tokens.trans ?_⟩
      obtain ⟨front, behind, rfl⟩ := List.append_of_mem hu
      exact ⟨Grammar.Tree.tokensAll front, Grammar.Tree.tokensAll behind, by
        rw [Grammar.Tree.tokens, tokensAll_append, Grammar.Tree.tokensAll, List.append_assoc]⟩

private theorem isNode_of_mem_describedAll :
    (us : List Tree) → DeriveAll us → ∀ t ∈ describedAll us, ∃ u ∈ us, IsNode u t
  | [], _ => by simp [describedAll]
  | u :: us, h => by
    intro t ht
    rw [describedAll, List.mem_append] at ht
    rcases ht with ht | ht
    · exact ⟨u, List.mem_cons_self, isNode_of_mem_described u h.1 t ht⟩
    · obtain ⟨v, hv, hnode⟩ := isNode_of_mem_describedAll us h.2 t ht
      exact ⟨v, List.mem_cons_of_mem _ hv, hnode⟩
end

/-! ### First tokens -/

/-- The first part of a described node has no described node in it. -/
private theorem productions_open : (productions.all fun p => !p.category.isDescribed ||
    p.symbols.head?.all fun x => !carries x) = true := by
  decide

theorem exists_token {t : Tree} (h : Derives t) : ∃ token toks, t.tokens = token :: toks := by
  obtain ⟨token, toks, htokens, -⟩ := firstOf_root 0 [] t h
  exact ⟨token, toks, htokens⟩

mutual
private theorem first?_sublist : (t : Tree) → Derives t → (described t).map Grammar.Tree.first? <+ t.tokens.map some
  | .leaf _, _ => List.nil_sublist _
  | .node c ts, h => by
    rw [described]
    cases hc : c.isDescribed with
    | false =>
      rw [if_neg Bool.false_ne_true, List.nil_append]
      exact first?_sublist_all ts h.2.2
    | true =>
      match ts, h with
      | [], h => exact absurd rfl h.1
      | t :: ts, h =>
        have hopen := List.all_eq_true.1 productions_open _ h.2.1
        have hcarries : carries t.root = false := by simpa [hc] using hopen
        obtain ⟨token, toks, htokens⟩ := exists_token h.2.2.1
        have hfirst : (Grammar.Tree.node c (t :: ts)).first? = some token := by
          rw [first?_eq_head?, Grammar.Tree.tokens, Grammar.Tree.tokensAll, htokens]
          rfl
        rw [if_pos rfl, List.singleton_append, List.map_cons, hfirst, describedAll,
          described_of_not_carries t h.2.2.1 hcarries, Grammar.Tree.tokens, Grammar.Tree.tokensAll, htokens]
        refine List.Sublist.cons_cons _ ((first?_sublist_all ts h.2.2.2).trans ?_)
        exact (List.sublist_append_right toks _).map some

private theorem first?_sublist_all : (ts : List Tree) → DeriveAll ts →
    (describedAll ts).map Grammar.Tree.first? <+ (Grammar.Tree.tokensAll ts).map some
  | [], _ => List.nil_sublist _
  | t :: ts, h => by
    rw [describedAll, Grammar.Tree.tokensAll, List.map_append, List.map_append]
    exact (first?_sublist t h.1).append (first?_sublist_all ts h.2)
end

private theorem nodup_map_some {α : Type} {l : List α} (h : l.Nodup) : (l.map some).Nodup :=
  h.map (Option.some_injective α)

/-- No described node comes twice. -/
theorem nodup_described {u : Tree} (hu : Derives u) (hnodup : u.tokens.Nodup) : (described u).Nodup :=
  ((first?_sublist u hu).nodup (nodup_map_some hnodup)).of_map _

/-- Different described nodes begin with different tokens. -/
theorem first?_injOn {u : Tree} (hu : Derives u) (hnodup : u.tokens.Nodup) {s t : Tree} (hs : s ∈ described u)
    (ht : t ∈ described u) (h : s.first? = t.first?) : s = t :=
  List.inj_on_of_nodup_map ((first?_sublist u hu).nodup (nodup_map_some hnodup)) hs ht h

/-! ### Last words -/

/-- The tokens of a tree other than separators. -/
def words (t : Tree) : List (Token Terminal) := t.tokens.filter fun token => token.kind.isWord

def wordsAll (ts : List Tree) : List (Token Terminal) :=
  (Grammar.Tree.tokensAll ts).filter fun token => token.kind.isWord

private theorem wordsAll_cons (t : Tree) (ts : List Tree) : wordsAll (t :: ts) =
    words t ++ wordsAll ts := List.filter_append ..

/-- The last token of a tree other than a separator. -/
def lastWord? (t : Tree) : Option (Token Terminal) := (words t).getLast?

/-- What consists of more than a separator. -/
def isWordy : Piece → Bool
  | .terminal k => k.isWord
  | .category c => c ≠ .separator

private theorem productions_words : (productions.all fun p =>
    if p.category = .separator then p.symbols.all fun x => !isWordy x
    else p.symbols.isEmpty || p.symbols.any isWordy) = true := by
  decide

mutual
theorem words_ne_nil : (t : Tree) → Derives t → isWordy t.root = true → words t ≠ []
  | .leaf token, _, hroot => by
    have hword : token.kind.isWord = true := hroot
    simp [words, Grammar.Tree.tokens, hword]
  | .node c ts, h, hroot => by
    have hc : c ≠ .separator := of_decide_eq_true hroot
    have hwords := List.all_eq_true.1 productions_words _ h.2.1
    rw [if_neg hc, Bool.or_eq_true, or_iff_right (by simpa using h.1)] at hwords
    obtain ⟨x, hx, hwordy⟩ := List.any_eq_true.1 hwords
    obtain ⟨t, ht, rfl⟩ := List.mem_map.1 hx
    exact wordsAll_ne_nil ts h.2.2 ⟨t, ht, hwordy⟩

private theorem wordsAll_ne_nil : (ts : List Tree) → DeriveAll ts → (∃ t ∈ ts, isWordy t.root = true) → wordsAll ts ≠ []
  | [], _, hex => by simp at hex
  | t :: ts, h, hex => by
    rw [wordsAll_cons]
    obtain ⟨u, hu, hwordy⟩ := hex
    rcases List.mem_cons.1 hu with heq | hu
    · exact List.append_ne_nil_of_left_ne_nil (words_ne_nil t h.1 (heq ▸ hwordy)) _
    · exact List.append_ne_nil_of_right_ne_nil _ (wordsAll_ne_nil ts h.2 ⟨u, hu, hwordy⟩)
end

mutual
private theorem words_eq_nil : (t : Tree) → Derives t → isWordy t.root = false → words t = []
  | .leaf token, _, hroot => by
    have hword : token.kind.isWord = false := hroot
    simp [words, Grammar.Tree.tokens, hword]
  | .node c ts, h, hroot => by
    have hc : c = .separator := by
      by_contra hne
      rw [Grammar.Tree.root, isWordy, decide_eq_true hne] at hroot
      cases hroot
    have hwords := List.all_eq_true.1 productions_words _ h.2.1
    rw [if_pos hc] at hwords
    refine wordsAll_eq_nil ts h.2.2 fun t ht => ?_
    simpa using List.all_eq_true.1 hwords t.root (List.mem_map_of_mem ht)

private theorem wordsAll_eq_nil :
    (ts : List Tree) → DeriveAll ts → (∀ t ∈ ts, isWordy t.root = false) → wordsAll ts = []
  | [], _, _ => rfl
  | t :: ts, h, hts => by
    rw [wordsAll_cons, words_eq_nil t h.1 (hts t List.mem_cons_self),
      wordsAll_eq_nil ts h.2 fun u hu => hts u (List.mem_cons_of_mem _ hu)]
    rfl
end

/-- What ends with a word that is in no smaller node that comments behind it can describe. -/
def isSealed : Piece → Bool
  | .terminal k => k.isWord
  | .category c => c ≠ .separator && (c.isBare || c = .throws)

/-- Such a symbol comes last, but for a separator. -/
def sealsLast : List Piece → Bool
  | [] => false
  | x :: xs => sealsLast xs || (isSealed x && (xs.isEmpty || xs = [.category .separator]))

private theorem productions_seal : (productions.all fun p => sealsLast p.symbols ||
    !(p.category.takesTrailing || p.category = .throws)) = true := by
  decide

private theorem isWordy_of_isSealed {x : Piece} (h : isSealed x = true) : isWordy x = true := by
  cases x with
  | terminal k => exact h
  | category c =>
    rw [isSealed, Bool.and_eq_true] at h
    exact h.1

private theorem wordsAll_ne_nil_of_sealsLast {ts : List Tree} (h : DeriveAll ts)
    (hseal : sealsLast (ts.map Grammar.Tree.root) = true) : wordsAll ts ≠ [] := by
  refine wordsAll_ne_nil ts h ?_
  induction ts with
  | nil => cases hseal
  | cons t ts ih =>
    rw [List.map_cons, sealsLast, Bool.or_eq_true, Bool.and_eq_true] at hseal
    rcases hseal with hseal | ⟨hseal, -⟩
    · obtain ⟨u, hu, hwordy⟩ := ih h.2 hseal
      exact ⟨u, List.mem_cons_of_mem _ hu, hwordy⟩
    · exact ⟨t, List.mem_cons_self, isWordy_of_isSealed hseal⟩

/-- The nodes that comments behind them can describe. -/
def trailed (t : Tree) : List Tree := (described t).filter takesTrailing

def trailedAll (ts : List Tree) : List Tree := (describedAll ts).filter takesTrailing

private theorem trailedAll_cons (t : Tree) (ts : List Tree) : trailedAll (t :: ts) = trailed t ++ trailedAll ts :=
  List.filter_append ..

private theorem trailed_node (c : Category) (ts : List Tree) (hc : c.takesTrailing = true → c.isDescribed = true) :
    trailed (.node c ts) = (if c.takesTrailing then [.node c ts] else []) ++ trailedAll ts := by
  unfold trailed trailedAll
  rw [described, List.filter_append]
  congr 1
  cases htrailing : c.takesTrailing with
  | true => simp [hc htrailing, takesTrailing, htrailing]
  | false => cases hdescribed : c.isDescribed <;> simp [takesTrailing, htrailing]

private theorem trailed_of_not_carries {t : Tree} (h : Derives t) (hcarries : carries t.root = false) :
    trailed t = [] := by
  unfold trailed
  rw [described_of_not_carries t h hcarries]
  rfl

/-- The last words of some nodes are among words, each at another place. -/
def EndApart (nodes : List Tree) (ws : List (Token Terminal)) : Prop := nodes.map lastWord? <+~ ws.map some

theorem EndApart.append {ns ns' : List Tree} {ws ws' : List (Token Terminal)} (h : EndApart ns ws)
    (h' : EndApart ns' ws') : EndApart (ns ++ ns') (ws ++ ws') := by
  unfold EndApart
  rw [List.map_append, List.map_append]
  exact List.Subperm.append h h'

private theorem endApart_nil (ws : List (Token Terminal)) : EndApart [] ws := List.nil_subperm

/-- A node whose last word is that of none of the nodes in it. -/
theorem EndApart.cons {t : Tree} {ns : List Tree} (h : EndApart ns (words t).dropLast) (hwords : words t ≠ []) :
    EndApart (t :: ns) (words t) := by
  unfold EndApart at h ⊢
  have hlast : lastWord? t = some ((words t).getLast hwords) := List.getLast?_eq_some_getLast hwords
  have hsplit : (words t).map some = (words t).dropLast.map some ++ [lastWord? t] := by
    rw [hlast, ← List.map_singleton (f := some), ← List.map_append, List.dropLast_concat_getLast]
  rw [hsplit, List.map_cons]
  exact ((List.subperm_cons _).2 h).trans (List.perm_append_singleton _ _).symm.subperm

mutual
private theorem endApart_trailed : (t : Tree) → Derives t → EndApart (trailed t) (words t) ∧
    (isSealed t.root = true → EndApart (trailed t) (words t).dropLast)
  | .leaf _, _ => ⟨endApart_nil _, fun _ => endApart_nil _⟩
  | .node c ts, h => by
    have hcategory : ∀ c ∈ categories, c.takesTrailing = true → c.isDescribed = true ∧ isSealed (.category c) = false ∧
        isWordy (.category c) = true := by
      decide
    have hc := hcategory c (List.mem_of_getElem? (categories_number c))
    have hseal := List.all_eq_true.1 productions_seal _ h.2.1
    obtain ⟨hall, hlast⟩ := endApart_trailedAll ts h.2.2
    have hnode := trailed_node c ts fun htrailing => (hc htrailing).1
    cases htrailing : c.takesTrailing with
    | true =>
      obtain ⟨-, hopen, hwordy⟩ := hc htrailing
      rw [htrailing, if_pos rfl] at hnode
      have hsealed : sealsLast (ts.map Grammar.Tree.root) = true := by simpa [htrailing] using hseal
      refine ⟨?_, fun hsealed => ?_⟩
      · rw [hnode]
        exact EndApart.cons (hlast hsealed) (words_ne_nil _ h hwordy)
      · rw [Grammar.Tree.root, hopen] at hsealed
        cases hsealed
    | false =>
      rw [htrailing, if_neg Bool.false_ne_true, List.nil_append] at hnode
      rw [hnode]
      refine ⟨hall, fun hsealed => ?_⟩
      by_cases hthrows : c = .throws
      · exact hlast (by simpa [hthrows] using hseal)
      · have hbare : carries (.category c) = false := by
          rw [Grammar.Tree.root, isSealed, Bool.and_eq_true, Bool.or_eq_true] at hsealed
          simpa [carries, hthrows] using hsealed.2
        rw [← hnode, trailed_of_not_carries h hbare]
        exact endApart_nil _

private theorem endApart_trailedAll : (ts : List Tree) → DeriveAll ts → EndApart (trailedAll ts) (wordsAll ts) ∧
    (sealsLast (ts.map Grammar.Tree.root) = true → EndApart (trailedAll ts) (wordsAll ts).dropLast)
  | [], _ => ⟨endApart_nil _, fun _ => endApart_nil _⟩
  | t :: ts, h => by
    obtain ⟨ht, htlast⟩ := endApart_trailed t h.1
    obtain ⟨hts, htslast⟩ := endApart_trailedAll ts h.2
    rw [trailedAll_cons, wordsAll_cons]
    refine ⟨ht.append hts, fun hseal => ?_⟩
    rw [List.map_cons, sealsLast, Bool.or_eq_true, Bool.and_eq_true, Bool.or_eq_true] at hseal
    rcases hseal with hseal | ⟨hsealed, hseparator⟩
    · rw [List.dropLast_append_of_ne_nil (wordsAll_ne_nil_of_sealsLast h.2 hseal)]
      exact ht.append (htslast hseal)
    · -- nothing but perhaps a separator comes behind
      have hnone : trailedAll ts = [] ∧ wordsAll ts = [] := by
        rcases hseparator with hempty | hseparator
        · obtain rfl : ts = [] := by simpa using hempty
          exact ⟨rfl, rfl⟩
        · obtain ⟨u, rfl, hu⟩ := List.map_eq_singleton_iff.1 (of_decide_eq_true hseparator)
          refine ⟨?_, wordsAll_eq_nil [u] h.2 fun v hv => ?_⟩
          · rw [trailedAll_cons, trailed_of_not_carries h.2.1 (by rw [hu]; rfl)]
            rfl
          · rw [List.mem_singleton.1 hv, hu]
            rfl
      rw [hnone.1, hnone.2, List.append_nil, List.append_nil]
      exact htlast hsealed
end

/-- Different nodes that comments behind them can describe have different last words. -/
theorem lastWord?_injOn {u : Tree} (hu : Derives u) (hnodup : u.tokens.Nodup) {s t : Tree} (hs : s ∈ trailed u)
    (ht : t ∈ trailed u) (h : s.lastWord? = t.lastWord?) : s = t := by
  have hwords : (words u).Nodup := hnodup.filter _
  have happart := (endApart_trailed u hu).1
  obtain ⟨l, hperm, hsub⟩ := happart
  exact List.inj_on_of_nodup_map (hperm.nodup_iff.1 (hsub.nodup (nodup_map_some hwords))) hs ht h

end Tree

end ThriftGateway.Idl
