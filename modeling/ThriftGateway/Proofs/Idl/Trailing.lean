import ThriftGateway.Proofs.Idl.Leading

/-!
# The comments behind a node

That one piece of a text stands before another is said by `[a, b] <+ pieces`.  A comment that trails a node begins on
the line that the node ends on; if it begins behind the last word of the node, nothing but blanks, separators and
comments stands between them (`Layout.isFiller_of_trailing`).  So there is only one node that a comment leads or that it
trails from behind its last word (`trailing_of_parse`).  A comment that begins before the last token of a node on its
last line trails it as well (`Layout.trailing_of_before`), and that may be several nodes.
-/

namespace ThriftGateway.Idl

open Grammar (Position Token)
open Text (hasPlainLines lastLine)
open scoped List

/-! ### Order in lists without repetitions -/

section Order

variable {α : Type} {l : List α} {a b c : α}

private theorem sublist_trans₃ (hl : l.Nodup) (hab : [a, b] <+ l) (hbc : [b, c] <+ l) : [a, b, c] <+ l := by
  obtain ⟨front, behind, rfl, ha, hb⟩ := List.cons_sublist_iff.1 hab
  have hb : b ∈ behind := List.singleton_sublist.1 hb
  have hfront : b ∉ front := fun hfront => (List.nodup_append.1 hl).2.2 b hfront b hb rfl
  obtain ⟨before, after, hsplit, hb', hc⟩ := List.cons_sublist_iff.1 hbc
  refine List.cons_sublist_iff.2 ⟨front, behind, rfl, ha, ?_⟩
  -- what stands before the second element begins with all of the front
  rcases List.append_eq_append_iff.1 hsplit with ⟨z, rfl, rfl⟩ | ⟨z, rfl, -⟩
  · have hz : b ∈ z := (List.mem_append.1 hb').resolve_left hfront
    exact List.cons_sublist_iff.2 ⟨z, after, rfl, hz, hc⟩
  · exact absurd (List.mem_append_left z hb') hfront

private theorem not_sublist_swap (hl : l.Nodup) (hab : [a, b] <+ l) : ¬ [b, a] <+ l := by
  intro hba
  have haba := sublist_trans₃ hl hab hba
  exact List.nodup_iff_sublist.1 hl a (((List.Sublist.refl [a]).cons b).cons_cons a |>.trans haba)

/-- The last of the elements that satisfy `p`, with those behind it. -/
private theorem exists_of_getLast?_filter {p : α → Bool} (h : (l.filter p).getLast? = some a) :
    ∃ front behind, l = front ++ a :: behind ∧ p a = true ∧ ∀ b ∈ behind, p b = false := by
  rw [← List.head?_reverse, ← List.filter_reverse, List.head?_filter] at h
  obtain ⟨ha, before, after, hsplit, hbefore⟩ := List.find?_eq_some_iff_append.1 h
  refine ⟨after.reverse, before.reverse, ?_, ha, fun b hb => ?_⟩
  · rw [← List.reverse_reverse l, hsplit]
    simp
  · simpa using hbefore b (List.mem_reverse.1 hb)

end Order

/-- Blanks, comments and separators. -/
def Terminal.isFiller (k : Terminal) : Bool := k.isIgnored || !k.isWord

/-- What begins with a character that may stand between a node and a comment. -/
private theorem isFiller_of_opensWith {k : Terminal} {c : Char} (h : k.opensWith c = true)
    (hc : c ∈ [' ', '\t', ',', ';']) : k.isFiller = true := by
  have hall : ∀ k ∈ Terminal.all ++ [Terminal.stop],
      [' ', '\t', ',', ';'].all (fun c => !k.opensWith c || k.isFiller) = true := by
    decide
  simpa [h] using List.all_eq_true.1 (hall k (mem_terminals k)) c hc

/-! ### Between two pieces -/

section Between

variable {text : List Char} {pieces : List (Token Terminal)}

/-- What stands between two pieces on a line contains the pieces between them. -/
private theorem Laid.exists_between (h : Laid .origin text pieces) {l m c : Token Terminal} (hlm : [l, m] <+ pieces)
    (hmc : [m, c] <+ pieces) (hline : l.stop.line = c.start.line) :
    ∃ d ∈ (textBefore text c.start).drop (l.stop.column - 1), m.kind.opensWith d = true := by
  obtain ⟨x, pl, w, pm, y, htext, hl, hm⟩ := h.split₂ hlm
  obtain ⟨x', pm', w', pc, y', rfl, hm', hc⟩ := h.split₂ hmc
  obtain rfl : x ++ pl ++ w = x' :=
    eq_of_advance_eq (by simpa using htext.symm) (hm.start.symm.trans hm'.start)
  obtain ⟨d, rest, rfl⟩ := List.exists_cons_of_ne_nil hm'.ne_nil
  have hsplit : x ++ pl ++ w ++ d :: rest ++ w' = x ++ pl ++ (w ++ d :: rest ++ w') := by simp
  have hfeed : '\n' ∉ w ++ d :: rest ++ w' := by
    rw [hl.stop, hc.start, hsplit] at hline
    exact not_mem_of_line_advance hline.symm
  refine ⟨d, ?_, opensWith_of_match? hm'.fits⟩
  have hbefore : textBefore (x ++ pl ++ w ++ (d :: rest ++ (w' ++ (pc ++ y')))) c.start =
      lastLine (x ++ pl) ++ (w ++ d :: rest ++ w') := by
    rw [hc.start, ← Text.lastLine_append_of_not_mem _ hfeed, ← hsplit, ← textBefore_append _ (pc ++ y')]
    simp
  rw [hbefore, hl.stop, advance_origin]
  show d ∈ (lastLine (x ++ pl) ++ _).drop (lastLine (x ++ pl)).length
  rw [List.drop_left]
  simp

/-- Nothing stands between a piece and one that begins before it on the line where it ends. -/
private theorem Laid.between_eq_nil (h : Laid .origin text pieces) {l c : Token Terminal} (hcl : [c, l] <+ pieces)
    (hline : c.start.line = l.stop.line) : (textBefore text c.start).drop (l.stop.column - 1) = [] := by
  obtain ⟨x, pc, w, pl, y, rfl, hc, hl⟩ := h.split₂ hcl
  have hsplit : x ++ pc ++ w ++ pl = x ++ (pc ++ w ++ pl) := by simp
  have hfeed : '\n' ∉ pc ++ w ++ pl := by
    rw [hl.stop, hc.start, hsplit] at hline
    exact not_mem_of_line_advance hline.symm
  rw [hc.start, textBefore_append, hl.stop, hsplit, advance_origin, Text.lastLine_append_of_not_mem _ hfeed]
  show (lastLine x).drop (lastLine x ++ _).length = []
  rw [List.drop_eq_nil_iff, List.length_append]
  omega

end Between

/-! ### Trailing comments -/

section Layout

variable {text : List Char} {parsed : Parsed} {pieces : List (Token Terminal)} (h : Layout text parsed pieces)
  (hplain : hasPlainLines text = true) {t : Tree} {first last word : Token Terminal}

include h

/-- The order of tokens in the tree is that of the pieces. -/
private theorem Layout.sublist_tokens {a b : Token Terminal} (ha : a ∈ parsed.tree.tokens)
    (hb : b ∈ parsed.tree.tokens) : [a, b] <+ parsed.tree.tokens ↔ [a, b] <+ pieces := by
  rw [h.mem_tokens] at ha hb
  rw [h.tokens]
  constructor
  · exact fun hab => hab.trans List.filter_sublist
  · intro hab
    simpa [ha.2, hb.2] using hab.filter fun t => !t.kind.isIgnored

include hplain

/-- Which comments trail a node. -/
private theorem Layout.mem_trailing (hends : t.Spans first last) {c : Token Terminal} :
    c ∈ t.trailing (parsed.index text) ↔ t.takesTrailing = true ∧ c ∈ parsed.comments ∧ c.start.line = last.stop.line ∧
      ¬ OpensLine text c.start ∧
      ∀ d ∈ (textBefore text c.start).drop (last.stop.column - 1), d ∈ [' ', '\t', ',', ';'] := by
  unfold Tree.trailing
  cases htrailing : t.takesTrailing with
  | false => simp
  | true =>
    rw [if_pos rfl, hends.extent?, Option.elim_some, List.mem_filter, CommentIndex.trailing, List.mem_filter,
      Bool.and_eq_true, decide_eq_true_eq, Bool.not_eq_true', and_assoc, and_assoc, eq_self, true_and]
    refine and_congr_right fun hc => and_congr_right fun hline => ?_
    obtain ⟨hpiece, hcomment⟩ := h.mem_comments.1 hc
    have hkind := ne_blank_of_isComment hcomment
    have hopens : (parsed.index text).opensLine c.start = true ↔ OpensLine text c.start :=
      h.laid.opensLine_iff hplain hpiece hkind parsed.comments
    have hbefore : (parsed.index text).before c.start = textBefore text c.start :=
      h.laid.before_start hplain hpiece hkind parsed.comments
    rw [← Bool.not_eq_true, hopens, ← hbefore, CommentIndex.closesLine, CommentIndex.before, ← hline]
    simp [List.all_eq_true, or_assoc]

/-- Behind the last word of a node, up to a comment that trails it, there are only blanks, separators and comments. -/
theorem Layout.isFiller_of_trailing (hends : t.Spans first last) (hword : t.lastWord? = some word)
    (ht : t.tokens <:+: parsed.tree.tokens) {c : Token Terminal} (hc : c ∈ t.trailing (parsed.index text))
    {m : Token Terminal} (hwm : [word, m] <+ pieces) (hmc : [m, c] <+ pieces) : m.kind.isFiller = true := by
  obtain ⟨-, -, hline, -, hbetween⟩ := (h.mem_trailing hplain hends).1 hc
  by_contra hfiller
  obtain ⟨hignored, hmword⟩ : m.kind.isIgnored = false ∧ m.kind.isWord = true := by
    simpa [Terminal.isFiller] using hfiller
  obtain ⟨inner, rest, htokens, -, hrest⟩ := exists_of_getLast?_filter hword
  obtain ⟨front, behind, hall⟩ := ht
  have hwordmem : word ∈ parsed.tree.tokens := by
    rw [← hall, htokens]
    simp
  have hmmem : m ∈ parsed.tree.tokens := h.mem_tokens.2 ⟨hmc.mem (by simp), hignored⟩
  have hnodup := h.nodup_tokens
  have hwm' := (h.sublist_tokens hwordmem hmmem).2 hwm
  -- it is a token behind the node
  have hbehind : m ∈ behind := by
    rw [← hall, htokens] at hmmem hnodup hwm'
    have hsplit : front ++ (inner ++ word :: rest) ++ behind = (front ++ inner) ++ word :: (rest ++ behind) := by simp
    rw [hsplit] at hmmem hnodup hwm'
    rcases List.mem_append.1 hmmem with hm | hm
    · have hmw : [m, word] <+ (front ++ inner) ++ word :: (rest ++ behind) :=
        (List.singleton_sublist.2 hm).append (List.singleton_sublist.2 List.mem_cons_self)
      exact absurd hwm' (not_sublist_swap hnodup hmw)
    · rcases List.mem_cons.1 hm with rfl | hm
      · exact absurd hwm' (List.nodup_iff_sublist.1 hnodup _)
      · refine (List.mem_append.1 hm).resolve_left fun hm => ?_
        rw [hrest m hm] at hmword
        cases hmword
  have hlm : [last, m] <+ parsed.tree.tokens := by
    rw [← hall]
    exact (List.singleton_sublist.2 (List.mem_append_right _ hends.last_mem)).append (List.singleton_sublist.2 hbehind)
  obtain ⟨d, hd, hopens⟩ := h.laid.exists_between (hlm.trans (h.tokens ▸ List.filter_sublist)) hmc hline.symm
  exact hfiller (isFiller_of_opensWith hopens (hbetween d hd))

/-- A comment that does not open its line and begins before the last token of a node, on the line that it ends on,
trails the node. -/
theorem Layout.trailing_of_before (hends : t.Spans first last) (ht : t.takesTrailing = true) {c : Token Terminal}
    (hc : c ∈ parsed.comments) (hline : c.start.line = last.stop.line) (hopens : ¬ OpensLine text c.start)
    (hbefore : [c, last] <+ pieces) : c ∈ t.trailing (parsed.index text) := by
  refine (h.mem_trailing hplain hends).2 ⟨ht, hc, hline, hopens, ?_⟩
  rw [h.laid.between_eq_nil hbefore hline]
  simp

end Layout

/-! ### Comments and their nodes -/

/-- The comment leads the node, or it trails the node from behind its last word. -/
def BelongsTo (x : CommentIndex) (pieces : List (Token Terminal)) (c : Token Terminal) (t : Tree) : Prop :=
  c ∈ t.leading x ∨ c ∈ t.trailing x ∧ ∃ word, t.lastWord? = some word ∧ [word, c] <+ pieces

/-- A described node has a last word. -/
private theorem exists_lastWord {u t : Tree} (ht : Tree.IsNode u t) : ∃ word, t.lastWord? = some word := by
  obtain ⟨c, hroot, hc⟩ := ht.described
  have hwordy : Tree.isWordy t.root = true := by
    rw [hroot]
    cases c <;> first | rfl | cases hc
  exact ⟨_, List.getLast?_eq_some_getLast (Tree.words_ne_nil t ht.derives hwordy)⟩

private theorem word_mem {u t : Tree} (ht : Tree.IsNode u t) {word : Token Terminal} (hword : t.lastWord? = some word) :
    word ∈ u.tokens ∧ word.kind.isWord = true := by
  have hmem := List.mem_filter.1 (List.mem_of_mem_getLast? hword)
  exact ⟨ht.tokens.mem hmem.1, hmem.2⟩

section Layout

variable {text : List Char} {parsed : Parsed} {pieces : List (Token Terminal)} (h : Layout text parsed pieces)
  (hplain : hasPlainLines text = true)

include h hplain

/-- Two nodes that a comment trails from behind their last words have the same last word. -/
private theorem Layout.eq_of_mem_trailing {s t : Tree} (hs : Tree.IsNode parsed.tree s) (ht : Tree.IsNode parsed.tree t)
    {word word' c : Token Terminal} (hword : s.lastWord? = some word) (hword' : t.lastWord? = some word')
    (hcs : c ∈ s.trailing (parsed.index text)) (hct : c ∈ t.trailing (parsed.index text)) (hwc : [word, c] <+ pieces)
    (hwc' : [word', c] <+ pieces) : word = word' := by
  -- the later one would stand between the earlier one and the comment
  have hearlier : ∀ {t : Tree} {word word' : Token Terminal}, Tree.IsNode parsed.tree t → t.lastWord? = some word →
      c ∈ t.trailing (parsed.index text) → word' ∈ parsed.tree.tokens ∧ word'.kind.isWord = true →
      [word', c] <+ pieces → ¬ [word, word'] <+ pieces := by
    intro t word word' ht hword hc hmem hwc hww
    obtain ⟨first, last, hends⟩ := Tree.exists_spans ht.derives
    have hfiller := h.isFiller_of_trailing hplain hends hword ht.tokens hc hww hwc
    rw [Terminal.isFiller, hmem.2, (h.mem_tokens.1 hmem.1).2] at hfiller
    cases hfiller
  have hmem := word_mem hs hword
  have hmem' := word_mem ht hword'
  by_contra hne
  rcases sublist_or_sublist (h.mem_tokens.1 hmem.1).1 (h.mem_tokens.1 hmem'.1).1 hne with hww | hww
  · exact hearlier hs hword hcs hmem' hwc' hww
  · exact hearlier ht hword' hct hmem hwc hww

/-- A comment belongs to one node at most. -/
private theorem Layout.eq_of_belongsTo (hu : parsed.tree.IsDerived) {s t : Tree} (hs : s ∈ parsed.tree.described)
    (ht : t ∈ parsed.tree.described) {c : Token Terminal} (hcs : BelongsTo (parsed.index text) pieces c s)
    (hct : BelongsTo (parsed.index text) pieces c t) : s = t := by
  obtain ⟨hderives, hnode⟩ := isNode_of_isDerived hu hs
  obtain ⟨-, hnode'⟩ := isNode_of_isDerived hu ht
  obtain ⟨first, last, hends⟩ := Tree.exists_spans hnode.derives
  obtain ⟨first', last', hends'⟩ := Tree.exists_spans hnode'.derives
  have hfirst := hnode.tokens.mem hends.first_mem
  have hfirst' := hnode'.tokens.mem hends'.first_mem
  rcases hcs with hcs | ⟨hcs, word, hword, hwc⟩
  · rcases hct with hct | ⟨hct, -⟩
    · obtain rfl := h.eq_of_mem_leading hplain hends hends' hfirst hfirst' hcs hct
      exact Tree.first?_injOn hderives h.nodup_tokens hs ht (hends.first.trans hends'.first.symm)
    · have hopens := ((h.run_of_mem_leading hplain hends hfirst hcs).2.mem hcs).2
      exact absurd hopens ((h.mem_trailing hplain hends').1 hct).2.2.2.1
  · rcases hct with hct | ⟨hct, word', hword', hwc'⟩
    · have hopens := ((h.run_of_mem_leading hplain hends' hfirst' hct).2.mem hct).2
      exact absurd hopens ((h.mem_trailing hplain hends).1 hcs).2.2.2.1
    · obtain rfl := h.eq_of_mem_trailing hplain hnode hnode' hword hword' hcs hct hwc hwc'
      have htrailed : ∀ {t : Tree} {first last : Token Terminal}, t.Spans first last → t ∈ parsed.tree.described →
          c ∈ t.trailing (parsed.index text) → t ∈ parsed.tree.trailed := fun hends ht hc =>
        List.mem_filter.2 ⟨ht, ((h.mem_trailing hplain hends).1 hc).1⟩
      exact Tree.lastWord?_injOn hderives h.nodup_tokens (htrailed hends hs hcs) (htrailed hends' ht hct)
        (hword.trans hword'.symm)

end Layout

/-- No comment belongs to two nodes.  A comment that trails a node does not open its line, which is the line that the
node ends on; unless it begins before the last word of the node, only blanks, separators and comments stand between the
two.  Such a comment that begins before the last token of the node trails it in any case. -/
theorem trailing_of_parse {text : String} {d : Document} (h : parse text = .ok d)
    (hplain : hasPlainLines text.toList = true) :
    ∃ parsed pieces, parseTree text.toList = .ok parsed ∧ Layout text.toList parsed pieces ∧
      d.descriptions = parsed.tree.described.map (fun t =>
        (t.line, describedBy (t.leading (parsed.index text.toList) ++ t.trailing (parsed.index text.toList)))) ∧
      (∀ c, parsed.tree.described.Pairwise fun s t =>
        ¬ (BelongsTo (parsed.index text.toList) pieces c s ∧ BelongsTo (parsed.index text.toList) pieces c t)) ∧
      ∀ t ∈ parsed.tree.described, ∃ last word, t.last? = some last ∧ t.lastWord? = some word ∧
        (∀ c ∈ t.trailing (parsed.index text.toList), t.takesTrailing = true ∧ c ∈ parsed.comments ∧
          c.start.line = last.stop.line ∧ ¬ OpensLine text.toList c.start ∧
          ([c, word] <+ pieces ∨ [word, c] <+ pieces ∧ ∀ m, [word, m, c] <+ pieces → m.kind.isFiller = true)) ∧
        (t.takesTrailing = true → ∀ c ∈ parsed.comments, c.start.line = last.stop.line →
          ¬ OpensLine text.toList c.start → [c, last] <+ pieces → c ∈ t.trailing (parsed.index text.toList)) := by
  obtain ⟨parsed, pieces, hparsed, hlayout, hderived, hdescriptions⟩ := exists_parsed h
  refine ⟨parsed, pieces, hparsed, hlayout, hdescriptions, fun c => ?_, fun t ht => ?_⟩
  · have hnodup : parsed.tree.described.Nodup := by
      rcases hderived with hderives | hempty
      · exact Tree.nodup_described hderives hlayout.nodup_tokens
      · rw [hempty]
        exact List.nodup_nil
    refine List.Pairwise.imp_of_mem (fun {s t} hs ht hne hboth => ?_) hnodup
    exact hne (hlayout.eq_of_belongsTo hplain hderived hs ht hboth.1 hboth.2)
  · obtain ⟨-, hnode⟩ := isNode_of_isDerived hderived ht
    obtain ⟨first, last, hends⟩ := Tree.exists_spans hnode.derives
    obtain ⟨word, hword⟩ := exists_lastWord hnode
    refine ⟨last, word, hends.last, hword, fun c hc => ?_, fun htakes c hc hline hopens hbefore =>
      hlayout.trailing_of_before hplain hends htakes hc hline hopens hbefore⟩
    obtain ⟨htakes, hcomment, hline, hopens, -⟩ := (hlayout.mem_trailing hplain hends).1 hc
    refine ⟨htakes, hcomment, hline, hopens, ?_⟩
    have hwordmem := word_mem hnode hword
    obtain ⟨hcpiece, hckind⟩ := hlayout.mem_comments.1 hcomment
    have hne : c ≠ word := by
      rintro rfl
      rw [Terminal.isComment, (hlayout.mem_tokens.1 hwordmem.1).2] at hckind
      cases hckind
    refine (sublist_or_sublist hcpiece (hlayout.mem_tokens.1 hwordmem.1).1 hne).imp_right fun hwc =>
      ⟨hwc, fun m hm => ?_⟩
    have hwm : [word, m] <+ pieces := (List.sublist_append_left [word, m] [c]).trans hm
    have hmc : [m, c] <+ pieces := (List.sublist_cons_self word [m, c]).trans hm
    exact hlayout.isFiller_of_trailing hplain hends hword hnode.tokens hc hwm hmc

/-- Three members on one line, and a comment behind the first of them. -/
def crowded : String := "enum E \x7b A, /* c */ B, C \x7d"

/-- The comment trails all three members, as two of them end behind it; it belongs to one of them only. -/
theorem trailing_of_parse_crowded :
    hasPlainLines crowded.toList = true ∧ ∃ d, parse crowded = .ok d ∧
      d.descriptions = [(1, none), (1, some "c"), (1, some "c"), (1, some "c")] ∧
      ∃ parsed pieces, Layout crowded.toList parsed pieces ∧ ∃ c ∈ parsed.comments,
        (parsed.tree.described.countP fun t => c ∈ t.trailing (parsed.index crowded.toList)) = 3 ∧
        parsed.tree.described.Pairwise fun s t => ¬ (BelongsTo (parsed.index crowded.toList) pieces c s ∧
          BelongsTo (parsed.index crowded.toList) pieces c t) := by
  have hplain : hasPlainLines crowded.toList = true := by decide
  have hdocument : (parse crowded).toOption.map Document.descriptions =
      some [(1, none), (1, some "c"), (1, some "c"), (1, some "c")] := by
    decide +kernel
  have hcomment : (parseTree crowded.toList).toOption.all (fun parsed => parsed.comments.any fun c =>
      (parsed.tree.described.countP fun t => c ∈ t.trailing (parsed.index crowded.toList)) = 3) = true := by
    decide +kernel
  cases hparse : parse crowded with
  | error e =>
    rw [hparse] at hdocument
    cases hdocument
  | ok d =>
    rw [hparse] at hdocument
    obtain ⟨parsed, pieces, hparsed, hlayout, -, hone, -⟩ := trailing_of_parse hparse hplain
    rw [hparsed] at hcomment
    obtain ⟨c, hc, hthree⟩ := List.any_eq_true.1 hcomment
    exact ⟨hplain, d, rfl, Option.some.inj hdocument, parsed, pieces, hlayout, c, hc, of_decide_eq_true hthree, hone c⟩

end ThriftGateway.Idl
