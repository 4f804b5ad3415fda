import ThriftGateway.Proofs.Idl.Layout

/-!
# Runs of comments

In a text the lines of which line feeds end, the index of comments finds before a piece what stands before it in the
text (`before_start`).  The comments that lead a node are the longest run of comments that open their lines, each ending
right above the next and the last right above the node (`isRun_leadingBlock`); there is only one such run
(`IsRun.unique`), and no line of it is opened by anything else (`IsRun.exists_covering`).
-/

namespace ThriftGateway.Idl

open Grammar (Position Token)
open Text (isWhite hasPlainLines lastLine lineAt)
open scoped List

/-! ### The index of a text -/

private theorem trim_isEmpty (cs : List Char) : (Text.trim cs).isEmpty = cs.all isWhite := by
  rw [Bool.eq_iff_iff, List.all_eq_true]
  unfold Text.trim Text.trimBy
  rw [List.isEmpty_reverse, List.isEmpty_iff, List.dropWhile_eq_nil_iff]
  constructor
  · intro h c hc
    rw [← List.takeWhile_append_dropWhile (p := isWhite) (l := cs), List.mem_append] at hc
    rcases hc with hc | hc
    · exact List.mem_takeWhile_imp hc
    · exact h c (List.mem_reverse.2 hc)
  · intro h c hc
    exact h c ((List.dropWhile_suffix _).mem (List.mem_reverse.1 hc))

/-- Before a place that no line feed stands behind, the index finds what stands before it in the text. -/
private theorem before_append {x y : List Char} (hplain : hasPlainLines (x ++ y) = true) {c : Char} {y' : List Char}
    (hy : y = c :: y') (hc : c ≠ '\n') (comments : List (Token Terminal)) :
    (CommentIndex.ofText (x ++ y) comments).before (Position.origin.advance x) = lastLine x := by
  have hline : lineAt (x ++ y) (x.count '\n' + 1) = lastLine x ++ y.takeWhile (· ≠ '\n') := Text.lineAt_append x y
  have hmore : 0 < (y.takeWhile (· ≠ '\n')).length := by simp [hy, hc]
  rw [advance_origin]
  show (((Text.lines (x ++ y))[x.count '\n' + 1 - 1]?).getD []).take (lastLine x).length = lastLine x
  rcases Text.lineAt_eq hplain (x.count '\n' + 1) with hlines | hlines
  · rw [← hlines, hline, List.take_left]
  · -- the carriage return that the line lacks stands behind the place
    generalize ((Text.lines (x ++ y))[x.count '\n' + 1 - 1]?).getD [] = l at hlines ⊢
    have hwhole : l ++ ['\r'] = lastLine x ++ y.takeWhile (· ≠ '\n') := hlines.symm.trans hline
    have hlength := congrArg List.length hwhole
    rw [List.length_append, List.length_append, List.length_singleton] at hlength
    have hfront : (l ++ ['\r']).take (lastLine x).length = l.take (lastLine x).length :=
      List.take_append_of_le_length (by omega)
    rw [← hfront, hwhole, List.take_left]

section Index

variable {text : List Char} {pieces : List (Token Terminal)}

/-- Before a piece, the index finds what stands before it in the text. -/
theorem Laid.before_start (h : Laid .origin text pieces) (hplain : hasPlainLines text = true) {t : Token Terminal}
    (ht : t ∈ pieces) (hkind : t.kind ≠ .blank) (comments : List (Token Terminal)) :
    (CommentIndex.ofText text comments).before t.start = textBefore text t.start := by
  obtain ⟨front, behind, rfl⟩ := List.append_of_mem ht
  obtain ⟨m, piece, y, rfl, hpiece, -⟩ := Laid.split (x := []) h
  obtain ⟨c, rest, rfl, -, hc⟩ := hpiece.exists_cons hkind
  rw [List.nil_append] at hpiece
  rw [hpiece.start, before_append hplain rfl hc, textBefore_append]

theorem Laid.opensLine_iff (h : Laid .origin text pieces) (hplain : hasPlainLines text = true) {t : Token Terminal}
    (ht : t ∈ pieces) (hkind : t.kind ≠ .blank) (comments : List (Token Terminal)) :
    (CommentIndex.ofText text comments).opensLine t.start = true ↔ OpensLine text t.start := by
  unfold CommentIndex.opensLine OpensLine
  rw [trim_isEmpty, h.before_start hplain ht hkind]

end Index

/-! ### Runs -/

/-- A run of comments that satisfy `P` up to line `n`: the last one ends there, and each of the others on the line above
the next one.  No comment that satisfies `P` could be put before it. -/
inductive IsRun (P : Token Terminal → Prop) (comments : List (Token Terminal)) : Nat → List (Token Terminal) → Prop
  | nil {n : Nat} : (∀ c ∈ comments, P c → c.stop.line ≠ n) → IsRun P comments n []
  | snoc {c : Token Terminal} {run : List (Token Terminal)} : c ∈ comments → P c →
      IsRun P comments (c.start.line - 1) run → IsRun P comments c.stop.line (run ++ [c])

namespace IsRun

variable {P Q : Token Terminal → Prop} {comments run run' : List (Token Terminal)} {n : Nat}

theorem congr (h : IsRun P comments n run) (hpq : ∀ c ∈ comments, P c ↔ Q c) : IsRun Q comments n run := by
  induction h with
  | nil hnone => exact .nil fun c hc hq => hnone c hc ((hpq c hc).2 hq)
  | snoc hc hp _ ih => exact .snoc hc ((hpq _ hc).1 hp) ih

theorem mem (h : IsRun P comments n run) {c : Token Terminal} (hc : c ∈ run) : c ∈ comments ∧ P c := by
  induction h with
  | nil => cases hc
  | snoc hd hp _ ih =>
    rcases List.mem_append.1 hc with hc | hc
    · exact ih hc
    · rw [List.mem_singleton.1 hc]
      exact ⟨hd, hp⟩

/-- If no two of the comments end on one line, a run of those that satisfy `q`, too, is what of the run comes behind the
last one that does not. -/
theorem iff_rtakeWhile (h : IsRun P comments n run)
    (hends : ∀ a ∈ comments, ∀ b ∈ comments, P a → P b → a.stop.line = b.stop.line → a = b)
    (q : Token Terminal → Bool) :
    IsRun (fun c => P c ∧ q c = true) comments n run' ↔ run' = run.rtakeWhile q := by
  induction h generalizing run' with
  | nil hnone =>
    constructor
    · intro h'
      cases h' with
      | nil => rfl
      | snoc hc hp => exact absurd rfl (hnone _ hc hp.1)
    · rintro rfl
      exact .nil fun c hc hp => hnone c hc hp.1
  | @snoc c run hc hp _ ih =>
    -- no other comment ends there
    have honly : ∀ d ∈ comments, P d → d.stop.line = c.stop.line → d = c := fun d hd hp' => hends d hd c hc hp' hp
    cases hq : q c with
    | true =>
      rw [List.rtakeWhile_concat_pos _ _ _ hq]
      constructor
      · intro h'
        generalize hn : c.stop.line = n at h'
        cases h' with
        | nil hnone => exact absurd hn (hnone c hc ⟨hp, hq⟩)
        | snoc hd hp' hrest =>
          obtain rfl := honly _ hd hp'.1 hn.symm
          rw [ih.1 hrest]
      · rintro rfl
        exact .snoc hc ⟨hp, hq⟩ (ih.2 rfl)
    | false =>
      rw [List.rtakeWhile_concat_neg _ _ _ (by simp [hq])]
      constructor
      · intro h'
        generalize hn : c.stop.line = n at h'
        cases h' with
        | nil => rfl
        | snoc hd hp' =>
          obtain rfl := honly _ hd hp'.1 hn.symm
          rw [hq] at hp'
          cases hp'.2
      · rintro rfl
        refine .nil fun d hd hp' hline => ?_
        obtain rfl := honly d hd hp'.1 hline
        rw [hq] at hp'
        cases hp'.2

/-- If no two of the comments end on one line, there is only one run. -/
theorem unique (h : IsRun P comments n run)
    (hends : ∀ a ∈ comments, ∀ b ∈ comments, P a → P b → a.stop.line = b.stop.line → a = b)
    (h' : IsRun P comments n run') : run' = run := by
  have hall := (h.iff_rtakeWhile hends fun _ => true).1 (h'.congr fun c _ => by simp)
  rwa [List.rtakeWhile_eq_self_iff.2 fun c _ => rfl] at hall

/-- From a comment of the run on, every line down to the last belongs to a comment of the run. -/
theorem exists_covering (h : IsRun P comments n run) {c : Token Terminal} (hc : c ∈ run) {l : Nat}
    (hlow : c.start.line ≤ l) (hhigh : l ≤ n) : ∃ d ∈ run, d.start.line ≤ l ∧ l ≤ d.stop.line := by
  induction h with
  | nil => cases hc
  | @snoc d run _ _ _ ih =>
    by_cases hd : d.start.line ≤ l
    · exact ⟨d, by simp, hd, hhigh⟩
    · rcases List.mem_append.1 hc with hc | hc
      · obtain ⟨e, he, hcover⟩ := ih hc (by omega)
        exact ⟨e, List.mem_append_left _ he, hcover⟩
      · rw [List.mem_singleton.1 hc] at hlow
        exact absurd hlow hd

theorem line_le (h : IsRun P comments n run) (hlines : ∀ c ∈ comments, c.start.line ≤ c.stop.line) {c : Token Terminal}
    (hc : c ∈ run) : c.stop.line ≤ n := by
  induction h with
  | nil => cases hc
  | snoc hd _ _ ih =>
    rcases List.mem_append.1 hc with hc | hc
    · have hbefore := ih hc
      have hlines := hlines _ hd
      omega
    · rw [List.mem_singleton.1 hc]

end IsRun

/-- The leading comments of the index are a run, if comments do not end before they begin. -/
theorem isRun_leadingBlock (x : CommentIndex) (hlines : ∀ c ∈ x.comments, 1 ≤ c.start.line ∧ c.start.line ≤ c.stop.line)
    {fuel n : Nat} (hfuel : n < fuel) :
    IsRun (fun c => x.opensLine c.start = true) x.comments n (x.leadingBlock fuel n) := by
  induction fuel generalizing n with
  | zero => exact absurd hfuel (Nat.not_lt_zero _)
  | succ fuel ih =>
    unfold CommentIndex.leadingBlock
    cases hc : x.leading? n with
    | none =>
      refine .nil fun c hc' hopens hend => ?_
      have hno := List.find?_eq_none.1 hc c (List.mem_reverse.2 hc')
      simp [hopens, hend] at hno
    | some c =>
      have hmem : c ∈ x.comments := List.mem_reverse.1 (List.mem_of_find?_eq_some hc)
      have hfound := List.find?_some hc
      rw [Bool.and_eq_true, decide_eq_true_eq] at hfound
      obtain ⟨rfl, hopens⟩ := hfound
      have hbounds := hlines c hmem
      exact .snoc hmem hopens (ih (by omega))

section Layout

variable {text : List Char} {pieces : List (Token Terminal)}

theorem Laid.lines (h : Laid .origin text pieces) {t : Token Terminal} (ht : t ∈ pieces) :
    1 ≤ t.start.line ∧ t.start.line ≤ t.stop.line := by
  obtain ⟨front, behind, rfl⟩ := List.append_of_mem ht
  obtain ⟨m, piece, y, rfl, hpiece, -⟩ := Laid.split (x := []) h
  refine ⟨?_, hpiece.line_le⟩
  rw [hpiece.start, advance_origin]
  exact Nat.le_add_left _ _

/-- Comments that open their lines end on different lines. -/
theorem Laid.eq_of_stop_line (h : Laid .origin text pieces) {a b : Token Terminal} (ha : a ∈ pieces) (hb : b ∈ pieces)
    (hca : a.kind.isComment = true) (hcb : b.kind.isComment = true) (hoa : OpensLine text a.start)
    (hob : OpensLine text b.start) (hline : a.stop.line = b.stop.line) : a = b := by
  -- the second one would begin behind the first on its last line
  have hearlier : ∀ {a b : Token Terminal}, [a, b] <+ pieces → a.kind.isComment = true → a.stop.line = b.stop.line →
      ¬ OpensLine text b.start := by
    intro a b hab hca hline
    have hb : b ∈ pieces := hab.mem (by simp)
    have hle := h.line_le hab
    have hlines := h.lines hb
    refine h.not_opensLine hab ?_ (.inr ⟨hca, by omega⟩)
    rintro hblank
    rw [hblank] at hca
    cases hca
  by_contra hne
  rcases sublist_or_sublist ha hb hne with hab | hba
  · exact hearlier hab hca hline hob
  · exact hearlier hba hcb hline.symm hoa

end Layout

end ThriftGateway.Idl
