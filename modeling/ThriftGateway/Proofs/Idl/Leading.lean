import ThriftGateway.Proofs.Idl.Comments
import ThriftGateway.Proofs.Idl.Ends

/-!
# The comments above a node

A description is made of the comments that lead a node and those that trail it (`note_eq`).  In a text the lines of
which line feeds end, a node that opens its line is led by the longest run of comments above it that open their lines
(`leading_of_parse`); what stands behind such a comment on its last line does not matter.
-/

namespace ThriftGateway.Idl

open Grammar (Token)
open Text (hasPlainLines)
open scoped List

/-- The index of the text that a parse tree belongs to. -/
def Parsed.index (parsed : Parsed) (text : List Char) : CommentIndex := .ofText text parsed.comments

/-- The description that comments make: their texts without marks, those that say something, one below the other. -/
def describedBy (comments : List (Token Terminal)) : Option String :=
  let parts := (comments.map fun t => cleanComment t.text).filter (· ≠ "")
  if parts.isEmpty then none else some ("\n".intercalate parts)

namespace Tree

variable (x : CommentIndex) (t : Tree)

/-- The comments that lead a node. -/
def leading : List (Token Terminal) := t.extent?.elim [] fun e => x.commentsOf e false

/-- The comments that trail a node. -/
def trailing : List (Token Terminal) :=
  if t.takesTrailing then t.extent?.elim [] fun e => (x.trailing e.stop.line).filter (x.closesLine e) else []

/-- A node is described by the comments that lead it and then by those that trail it. -/
theorem note_eq : note x t = (t.line, describedBy (t.leading x ++ t.trailing x)) := by
  have hparts : ∀ e w, x.commentsOf e w = x.commentsOf e false ++
      if w then (x.trailing e.stop.line).filter (x.closesLine e) else [] := by
    intro e w
    simp [CommentIndex.commentsOf]
  unfold note descriptionOf leading trailing
  cases t.extent? with
  | none => cases t.takesTrailing <;> rfl
  | some e =>
    show (t.line, describedBy (x.commentsOf e t.takesTrailing)) = _
    rw [hparts]
    rfl

/-! ### Ends of nodes -/

mutual
private theorem last?_eq_getLast? : (t : Tree) → t.last? = t.tokens.getLast?
  | .leaf _ => rfl
  | .node _ ts => lastOf?_eq_getLast? ts

private theorem lastOf?_eq_getLast? : (ts : List Tree) → Grammar.Tree.lastOf? ts = (Grammar.Tree.tokensAll ts).getLast?
  | [] => rfl
  | t :: ts => by
    rw [Grammar.Tree.lastOf?, Grammar.Tree.tokensAll, List.getLast?_append, last?_eq_getLast? t, lastOf?_eq_getLast? ts]
end

/-- A node stands from its first to its last token. -/
structure Spans (t : Tree) (first last : Token Terminal) : Prop where
  first : t.first? = some first
  last : t.last? = some last

theorem Spans.extent? {t : Tree} {first last : Token Terminal} (h : Spans t first last) :
    t.extent? = some ⟨first.start, last.stop⟩ := by
  unfold Tree.extent?
  rw [h.first, h.last]

theorem Spans.line {t : Tree} {first last : Token Terminal} (h : Spans t first last) : t.line = first.start.line := by
  unfold Tree.line
  rw [h.first]
  rfl

theorem Spans.first_mem {t : Tree} {first last : Token Terminal} (h : Spans t first last) : first ∈ t.tokens :=
  List.mem_of_mem_head? (by rw [← first?_eq_head?, h.first]; rfl)

theorem Spans.last_mem {t : Tree} {first last : Token Terminal} (h : Spans t first last) : last ∈ t.tokens :=
  List.mem_of_mem_getLast? (by rw [← last?_eq_getLast?, h.last]; rfl)

theorem exists_spans {t : Tree} (h : Derives t) : ∃ first last, Spans t first last := by
  obtain ⟨token, toks, htokens⟩ := exists_token h
  refine ⟨token, (token :: toks).getLast (List.cons_ne_nil _ _), ?_, ?_⟩
  · rw [first?_eq_head?, htokens]
    rfl
  · rw [last?_eq_getLast?, htokens]
    exact List.getLast?_eq_some_getLast _

end Tree

/-! ### Nodes and pieces -/

section Layout

variable {text : List Char} {parsed : Parsed} {pieces : List (Token Terminal)}

/-- The pieces of a text that are tokens are those of the tree. -/
theorem Layout.mem_tokens (h : Layout text parsed pieces) {token : Token Terminal} :
    token ∈ parsed.tree.tokens ↔ token ∈ pieces ∧ token.kind.isIgnored = false := by
  rw [h.tokens, List.mem_filter]
  simp

theorem Layout.mem_comments (h : Layout text parsed pieces) {c : Token Terminal} :
    c ∈ parsed.comments ↔ c ∈ pieces ∧ c.kind.isComment = true := by
  rw [h.comments, List.mem_filter]

private theorem ne_blank_of_isIgnored {k : Terminal} (h : k.isIgnored = false) : k ≠ .blank := by
  rintro rfl
  cases h

theorem ne_blank_of_isComment {k : Terminal} (h : k.isComment = true) : k ≠ .blank := by
  rintro rfl
  cases h

/-- The described nodes of a parse tree are derived, and so is the tree if there is one. -/
theorem isNode_of_isDerived {u t : Tree} (hu : u.IsDerived) (ht : t ∈ u.described) :
    Tree.Derives u ∧ Tree.IsNode u t := by
  rcases hu with hu | rfl
  · exact ⟨hu, Tree.isNode_of_mem_described u hu t ht⟩
  · simp [Tree.described, Tree.describedAll, Category.isDescribed] at ht

variable (h : Layout text parsed pieces) (hplain : hasPlainLines text = true)

include h

theorem Layout.nodup_tokens : parsed.tree.tokens.Nodup := by
  rw [h.tokens]
  exact h.laid.nodup.filter _

/-- Comments that open their lines end on different lines. -/
private theorem Layout.eq_of_stop_line : ∀ a ∈ parsed.comments, ∀ b ∈ parsed.comments, OpensLine text a.start →
    OpensLine text b.start → a.stop.line = b.stop.line → a = b := by
  intro a ha b hb hoa hob hline
  obtain ⟨ha, hca⟩ := h.mem_comments.1 ha
  obtain ⟨hb, hcb⟩ := h.mem_comments.1 hb
  exact h.laid.eq_of_stop_line ha hb hca hcb hoa hob hline

include hplain

/-- The comments that lead a node are a run if the node opens its line, and none otherwise. -/
private theorem Layout.leading_eq {t : Tree} {first last : Token Terminal} (hends : t.Spans first last)
    (hfirst : first ∈ parsed.tree.tokens) :
    (OpensLine text first.start →
      IsRun (fun c => OpensLine text c.start) parsed.comments (t.line - 1) (t.leading (parsed.index text))) ∧
    (¬ OpensLine text first.start → t.leading (parsed.index text) = []) := by
  obtain ⟨hpiece, hkind⟩ := h.mem_tokens.1 hfirst
  have hopens : (parsed.index text).opensLine first.start = true ↔ OpensLine text first.start :=
    h.laid.opensLine_iff hplain hpiece (ne_blank_of_isIgnored hkind) parsed.comments
  have hleading : t.leading (parsed.index text) =
      if (parsed.index text).opensLine first.start then
        (parsed.index text).leadingBlock first.start.line (first.start.line - 1) else [] := by
    unfold Tree.leading
    rw [hends.extent?]
    simp [CommentIndex.commentsOf]
  rw [hleading, hends.line]
  constructor
  · intro hopen
    rw [if_pos (hopens.2 hopen)]
    have hlines : ∀ c ∈ parsed.comments, 1 ≤ c.start.line ∧ c.start.line ≤ c.stop.line :=
      fun c hc => h.laid.lines (h.mem_comments.1 hc).1
    have hpositive := (h.laid.lines hpiece).1
    refine (isRun_leadingBlock (parsed.index text) hlines (by omega)).congr fun c hc => ?_
    obtain ⟨hc, hcomment⟩ := h.mem_comments.1 hc
    exact h.laid.opensLine_iff hplain hc (ne_blank_of_isComment hcomment) parsed.comments
  · intro hnot
    rw [if_neg fun hopen => hnot (hopens.1 hopen)]

/-- A node that comments lead opens its line, right below the run of them. -/
theorem Layout.run_of_mem_leading {t : Tree} {first last c : Token Terminal} (hends : t.Spans first last)
    (hfirst : first ∈ parsed.tree.tokens) (hc : c ∈ t.leading (parsed.index text)) :
    OpensLine text first.start ∧
      IsRun (fun c => OpensLine text c.start) parsed.comments (first.start.line - 1)
        (t.leading (parsed.index text)) := by
  obtain ⟨hrun, hnone⟩ := h.leading_eq hplain hends hfirst
  by_cases hopens : OpensLine text first.start
  · exact ⟨hopens, hends.line ▸ hrun hopens⟩
  · rw [hnone hopens] at hc
    cases hc

/-- No line of the comments that lead a node is opened by a token. -/
private theorem Layout.not_line_lt {s t : Tree} {first last first' last' : Token Terminal} (hs : s.Spans first last)
    (ht : t.Spans first' last') (hfirst : first ∈ parsed.tree.tokens) (hfirst' : first' ∈ parsed.tree.tokens)
    {c : Token Terminal} (hcs : c ∈ s.leading (parsed.index text)) (hct : c ∈ t.leading (parsed.index text)) :
    ¬ first.start.line < first'.start.line := by
  intro hlt
  obtain ⟨hopen, hrun⟩ := h.run_of_mem_leading hplain hs hfirst hcs
  obtain ⟨-, hrun'⟩ := h.run_of_mem_leading hplain ht hfirst' hct
  obtain ⟨hpiece, hkind⟩ := h.mem_tokens.1 hfirst
  have hlines : ∀ c ∈ parsed.comments, c.start.line ≤ c.stop.line :=
    fun c hc => (h.laid.lines (h.mem_comments.1 hc).1).2
  have habove := hrun.line_le hlines hcs
  have hc := hlines c (hrun.mem hcs).1
  have hpositive := (h.laid.lines hpiece).1
  -- the comments down to the second node go on through the line that the first one opens
  obtain ⟨d, hd, hlow, hhigh⟩ := hrun'.exists_covering hct (show c.start.line ≤ first.start.line by omega) (by omega)
  obtain ⟨hd, hdopen⟩ := hrun'.mem hd
  obtain ⟨hdpiece, hdcomment⟩ := h.mem_comments.1 hd
  have hne : d ≠ first := by
    rintro rfl
    rw [Terminal.isComment, hkind] at hdcomment
    cases hdcomment
  rcases sublist_or_sublist hdpiece hpiece hne with hdf | hfd
  · have hle := h.laid.line_le hdf
    exact h.laid.not_opensLine hdf (ne_blank_of_isComment hdcomment) (.inr ⟨hdcomment, by omega⟩) hopen
  · have hle := h.laid.line_le hfd
    have hfirstlines := (h.laid.lines hpiece).2
    exact h.laid.not_opensLine hfd (ne_blank_of_isIgnored hkind) (.inl (by omega)) hdopen

/-- A comment leads one node at most. -/
theorem Layout.eq_of_mem_leading {s t : Tree} {first last first' last' : Token Terminal} (hs : s.Spans first last)
    (ht : t.Spans first' last') (hfirst : first ∈ parsed.tree.tokens) (hfirst' : first' ∈ parsed.tree.tokens)
    {c : Token Terminal} (hcs : c ∈ s.leading (parsed.index text)) (hct : c ∈ t.leading (parsed.index text)) :
    first = first' := by
  have hle := h.not_line_lt hplain hs ht hfirst hfirst' hcs hct
  have hge := h.not_line_lt hplain ht hs hfirst' hfirst hct hcs
  have hopen := (h.run_of_mem_leading hplain hs hfirst hcs).1
  have hopen' := (h.run_of_mem_leading hplain ht hfirst' hct).1
  obtain ⟨hpiece, hkind⟩ := h.mem_tokens.1 hfirst
  obtain ⟨hpiece', hkind'⟩ := h.mem_tokens.1 hfirst'
  by_contra hne
  rcases sublist_or_sublist hpiece hpiece' hne with hab | hba
  · exact h.laid.not_opensLine hab (ne_blank_of_isIgnored hkind) (.inl (by omega)) hopen'
  · exact h.laid.not_opensLine hba (ne_blank_of_isIgnored hkind') (.inl (by omega)) hopen

end Layout

/-- The comments of a parse tree make the descriptions of its document. -/
theorem exists_parsed {text : String} {d : Document} (h : parse text = .ok d) :
    ∃ parsed pieces, parseTree text.toList = .ok parsed ∧ Layout text.toList parsed pieces ∧ parsed.tree.IsDerived ∧
      d.descriptions = parsed.tree.described.map fun t =>
        (t.line, describedBy (t.leading (parsed.index text.toList) ++ t.trailing (parsed.index text.toList))) := by
  have h : parse (String.ofList text.toList) = .ok d := by rwa [String.ofList_toList]
  obtain ⟨parsed, hparses, -, rfl⟩ := parse_eq_ok_iff.1 h
  have hparsed := parseTree_eq_ok_iff.2 hparses
  obtain ⟨hderived, hroot, pieces, hlayout⟩ := exists_layout hparsed
  refine ⟨parsed, pieces, hparsed, hlayout, hderived, ?_⟩
  rw [descriptions_ofTree _ hderived hroot]
  exact List.map_congr_left fun t _ => Tree.note_eq _ t

/-- The comment stands alone on the lines that it occupies. -/
def StandsAlone (text : List Char) (c : Token Terminal) : Prop := OpensLine text c.start ∧ ClosesLine text c.stop

/-- Every node with a description that does not open its line has no leading comments.  One that opens its line has as
leading comments the run of comments above it that open their lines.  The run of those that stand alone is what of it
comes behind the last comment that something else follows on its line. -/
theorem leading_of_parse {text : String} {d : Document} (h : parse text = .ok d)
    (hplain : hasPlainLines text.toList = true) :
    ∃ parsed, parseTree text.toList = .ok parsed ∧
      d.descriptions = parsed.tree.described.map (fun t =>
        (t.line, describedBy (t.leading (parsed.index text.toList) ++ t.trailing (parsed.index text.toList)))) ∧
      ∀ t ∈ parsed.tree.described, ∃ first, t.first? = some first ∧ t.line = first.start.line ∧
        (¬ OpensLine text.toList first.start → t.leading (parsed.index text.toList) = []) ∧
        (OpensLine text.toList first.start → ∀ run,
          (IsRun (fun c => OpensLine text.toList c.start) parsed.comments (t.line - 1) run ↔
            run = t.leading (parsed.index text.toList)) ∧
          (IsRun (StandsAlone text.toList) parsed.comments (t.line - 1) run ↔
            run = (t.leading (parsed.index text.toList)).rtakeWhile fun c => ClosesLine text.toList c.stop)) := by
  obtain ⟨parsed, pieces, hparsed, hlayout, hderived, hdescriptions⟩ := exists_parsed h
  refine ⟨parsed, hparsed, hdescriptions, fun t ht => ?_⟩
  obtain ⟨-, hnode⟩ := isNode_of_isDerived hderived ht
  obtain ⟨first, last, hends⟩ := Tree.exists_spans hnode.derives
  obtain ⟨hrun, hnone⟩ := hlayout.leading_eq hplain hends (hnode.tokens.mem hends.first_mem)
  refine ⟨first, hends.first, hends.line, hnone, fun hopen run =>
    ⟨⟨(hrun hopen).unique hlayout.eq_of_stop_line, ?_⟩, ?_⟩⟩
  · rintro rfl
    exact hrun hopen
  · have halone : ∀ c ∈ parsed.comments, StandsAlone text.toList c ↔
        OpensLine text.toList c.start ∧ decide (ClosesLine text.toList c.stop) = true := fun c _ => by
      rw [decide_eq_true_eq, StandsAlone]
    rw [← (hrun hopen).iff_rtakeWhile hlayout.eq_of_stop_line]
    exact ⟨fun hr => hr.congr halone, fun hr => hr.congr fun c hc => (halone c hc).symm⟩

/-- A struct with a comment before it on its line. -/
def shared : String := "/* c */ struct S \x7b\n  1: i32 a\n\x7d"

/-- A comment that the struct behind it shares its line with leads the field on the next line: it is in the run of
comments that open their lines, but not in that of comments that stand alone. -/
theorem leading_of_parse_shared :
    hasPlainLines shared.toList = true ∧ ∃ d, parse shared = .ok d ∧ d.descriptions = [(1, none), (2, some "c")] ∧
      ∃ parsed, parseTree shared.toList = .ok parsed ∧ parsed.comments ≠ [] ∧
        IsRun (fun c => OpensLine shared.toList c.start) parsed.comments 1 parsed.comments ∧
        IsRun (StandsAlone shared.toList) parsed.comments 1 [] := by
  have hplain : hasPlainLines shared.toList = true := by decide
  have hdocument : (parse shared).toOption.map Document.descriptions = some [(1, none), (2, some "c")] := by
    decide +kernel
  have hfield : (parseTree shared.toList).toOption.all (fun parsed => parsed.comments ≠ [] &&
      parsed.tree.described.any fun t => t.line = 2 && t.leading (parsed.index shared.toList) = parsed.comments &&
        (parsed.comments.rtakeWhile fun c => ClosesLine shared.toList c.stop) = [] &&
        t.first?.all fun first => OpensLine shared.toList first.start) = true := by
    decide +kernel
  cases hparse : parse shared with
  | error e =>
    rw [hparse] at hdocument
    cases hdocument
  | ok d =>
    rw [hparse] at hdocument
    obtain ⟨parsed, hparsed, -, hnodes⟩ := leading_of_parse hparse hplain
    rw [hparsed] at hfield
    simp only [Except.toOption, Option.all_some, Bool.and_eq_true, decide_eq_true_eq, List.any_eq_true] at hfield
    obtain ⟨hcomments, t, ht, ⟨⟨hline, hleading⟩, hnone⟩, hopens⟩ := hfield
    obtain ⟨first, hfirst, -, -, hruns⟩ := hnodes t ht
    rw [hfirst, Option.all_some, decide_eq_true_eq] at hopens
    have hrun := hruns hopens
    rw [hline, hleading] at hrun
    exact ⟨hplain, d, rfl, Option.some.inj hdocument, parsed, hparsed, hcomments, (hrun _).1.2 rfl,
      (hrun _).2.2 hnone.symm⟩

end ThriftGateway.Idl
