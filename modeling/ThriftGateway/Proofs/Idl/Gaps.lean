import ThriftGateway.Proofs.Idl.Unplaced

/-!
# Blanks and comments between tokens

Wherever the parser stands, a run of blanks, a comment, or a comment and the end of its line is cut as such, blanks
together with those behind them, and then the rest is read as it would be without (`Parses.insert`).
-/

namespace ThriftGateway.Idl

/-- A run of blanks, a block comment with nothing in it that ends it earlier, or a comment up to the end of its line
with the line feed. -/
inductive IsGap : List Char → Prop
  | blanks {w : List Char} : w ≠ [] → (∀ c ∈ w, isBlank c = true) → IsGap w
  | block {body : List Char} : ¬ ['*', '/'] <:+: body → IsGap ('/' :: '*' :: (body ++ ['*', '/']))
  | line {mark body : List Char} : mark ∈ [['/', '/'], ['#']] → '\n' ∉ body → IsGap (mark ++ body ++ ['\n'])

theorem IsGap.atGap {w : List Char} (h : IsGap w) (rest : List Char) : AtGap (w ++ rest) := by
  cases h with
  | blanks hne hw =>
    obtain ⟨c, w, rfl⟩ := List.exists_cons_of_ne_nil hne
    have hc := hw c List.mem_cons_self
    refine atGap_cons ?_ (w ++ rest)
    simp only [isBlank, Bool.or_eq_true, decide_eq_true_iff, or_assoc] at hc
    rcases hc with rfl | rfl | rfl | rfl | rfl <;> decide
  | block => exact atGap_cons (by decide) _
  | line hmark =>
    simp only [List.mem_cons, List.not_mem_nil, or_false] at hmark
    rcases hmark with rfl | rfl
    · exact atGap_cons (by decide) _
    · exact atGap_cons (by decide) _

/-! ### Cutting comments -/

/-- A block comment ends where it is first ended. -/
private theorem toCommentEnd_body {body : List Char} (h : ¬ ['*', '/'] <:+: body) (rest : List Char) :
    toCommentEnd (body ++ '*' :: '/' :: rest) = some (body.length + 2) := by
  induction body with
  | nil => rfl
  | cons c body ih =>
    have hbody : ¬ ['*', '/'] <:+: body := fun hwithin => h (hwithin.trans (List.suffix_cons c body).isInfix)
    have hend : ¬ (c = '*' ∧ (body ++ '*' :: '/' :: rest).head? = some '/') := by
      rintro ⟨rfl, hhead⟩
      cases body with
      | nil => simp at hhead
      | cons d body =>
        obtain rfl : d = '/' := by simpa using hhead
        exact h ⟨[], body, rfl⟩
    rw [List.cons_append, toCommentEnd_cons, if_neg hend, ih hbody]
    rfl

private theorem cut_blockComment (accepted : List Terminal) {body : List Char} (h : ¬ ['*', '/'] <:+: body)
    (rest : List Char) : (Mode.ofAccepted accepted).cut ('/' :: '*' :: (body ++ ['*', '/']) ++ rest) =
      some (.blockComment, ('/' :: '*' :: (body ++ ['*', '/'])).length) := by
  have htext : '/' :: '*' :: (body ++ ['*', '/']) ++ rest = '/' :: '*' :: (body ++ '*' :: '/' :: rest) := by simp
  have hmatch : Terminal.blockComment.match? ('/' :: '*' :: (body ++ '*' :: '/' :: rest)) =
      some ('/' :: '*' :: (body ++ ['*', '/'])).length := by
    show (toCommentEnd (body ++ '*' :: '/' :: rest)).map (· + 2) = _
    rw [toCommentEnd_body h]
    simp
  have hbefore : ∀ t ∈ Terminal.all, t.number < Terminal.blockComment.number → t ≠ .lineComment →
      t.opensWith '/' = false := by decide
  rw [htext]
  refine cut_ignored accepted rfl hmatch fun t ht => ?_
  by_cases hline : t = .lineComment
  · subst hline
    rfl
  · exact match?_eq_none (hbefore t (mem_all_of_lt ht) ht hline) _

private theorem cut_lineComment (accepted : List Terminal) {mark body : List Char} (hmark : mark ∈ [['/', '/'], ['#']])
    (hbody : '\n' ∉ body) (rest : List Char) :
    (Mode.ofAccepted accepted).cut (mark ++ body ++ '\n' :: rest) = some (.lineComment, (mark ++ body).length) := by
  have hspan : spanLength (· ≠ '\n') (body ++ '\n' :: rest) = body.length := by
    unfold spanLength
    rw [List.takeWhile_append_of_pos (by simpa using fun c hc => ne_of_mem_of_not_mem hc hbody)]
    simp
  have hbefore : ∀ t ∈ Terminal.all, t.number < Terminal.lineComment.number →
      t.opensWith '/' = false ∧ t.opensWith '#' = false := by decide
  simp only [List.mem_cons, List.not_mem_nil, or_false] at hmark
  rcases hmark with rfl | rfl
  · refine cut_ignored accepted rfl ?_ fun t ht => match?_eq_none (hbefore t (mem_all_of_lt ht) ht).1 _
    show some (2 + spanLength (· ≠ '\n') (body ++ '\n' :: rest)) = some (body.length + 1 + 1)
    rw [hspan, Nat.add_comm]
  · refine cut_ignored accepted rfl ?_ fun t ht => match?_eq_none (hbefore t (mem_all_of_lt ht) ht).2 _
    show some (1 + spanLength (· ≠ '\n') (body ++ '\n' :: rest)) = some (body.length + 1)
    rw [hspan, Nat.add_comm]

/-! ### Inserting gaps -/

/-- A blank or comment that is cut leaves the stack as it is. -/
private theorem Progress.after?_ignored (p : Progress) {k : Terminal} (hk : k.isIgnored = true) (piece : List Char) :
    ∃ q, p.after? k piece = some q ∧ q.stack = p.stack := by
  unfold Progress.after?
  exact ⟨_, if_pos hk, rfl⟩

/-- Behind a blank or comment the parser goes on with the same stack. -/
private theorem Parses.skip {p : Progress} {k : Terminal} (hk : k.isIgnored = true) {w rest : List Char}
    (hcut : p.mode.cut (w ++ rest) = some (k, w.length)) :
    ∃ q, q.stack = p.stack ∧ ∀ r, Parses p (w ++ rest) r ↔ Parses q rest r := by
  obtain ⟨q, hafter, hstack⟩ := p.after?_ignored hk w
  refine ⟨q, hstack, fun r => ⟨fun h => ?_, fun h => ?_⟩⟩
  · obtain ⟨q', hafter', hrest⟩ := h.of_cut hcut
    rw [List.take_left, hafter, Option.some.injEq] at hafter'
    rw [List.drop_left] at hrest
    exact hafter' ▸ hrest
  · refine .step hcut (q := q) ?_ ?_
    · rwa [List.take_left]
    · rwa [List.drop_left]

section Modes

-- a step of `take` is not to be carried out
attribute [local irreducible] take automaton states thrift Grammar.Automaton.action? Mode.ofAccepted acceptedIn

/-- Where a run goes on, the parser tries what its state accepts. -/
theorem Parses.mode_eq {p : Progress} {cs : List Char} {r : Parsed} (h : Parses p cs r) :
    p.mode = Mode.ofAccepted (acceptedIn (topState p.stack)) := by
  unfold Progress.mode
  cases h with
  | @done p tree htake =>
    obtain ⟨s, ha, -⟩ | ⟨s, tree', rest, ha, hstack, -⟩ | ⟨n, production, stack', ha, -⟩ | heq :=
      take_succ_cases (takeFuel p.stack - 1) p.stack .stop
    · exact modeOf_of_action ha
    · rw [hstack]
      exact modeOf_of_action ha
    · exact modeOf_of_action ha
    · have hfuel : takeFuel p.stack - 1 + 1 = takeFuel p.stack := Nat.sub_add_cancel (takeFuel_pos _)
      rw [hfuel, htake] at heq
      cases heq
  | step hcut =>
    by_cases hlt : topState p.stack < automaton.states.size
    · exact modeOf_of_lt hlt
    · have hnone : modeOf (topState p.stack) = ⟨[], []⟩ := by
        unfold modeOf modes
        rw [List.getElem?_toArray, List.getElem?_map, List.getElem?_eq_none (by simpa using hlt)]
        rfl
      unfold Progress.mode at hcut
      rw [hnone] at hcut
      cases hcut

end Modes

section Insert

variable {p p' : Progress} {rest : List Char} {r : Parsed}

/-- A gap that is cut in full changes places only. -/
private theorem Parses.insert_piece (hr : Parses p rest r) (h : unplacedStack p.stack = unplacedStack p'.stack)
    {k : Terminal} (hk : k.isIgnored = true) {w : List Char} (hcut : p'.mode.cut (w ++ rest) = some (k, w.length)) :
    ∃ r', Parses p' (w ++ rest) r' ∧ Tree.unplaced r.tree = Tree.unplaced r'.tree := by
  obtain ⟨q, hstack, hskip⟩ := Parses.skip hk hcut
  rw [← hstack] at h
  obtain ⟨r', hr', htree⟩ := hr.alike h
  exact ⟨r', (hskip r').2 hr', htree⟩

/-- Blanks in front of a text, cut together with those that it begins with, change places only. -/
private theorem Parses.insert_blanks (hr : Parses p rest r) (h : unplacedStack p.stack = unplacedStack p'.stack)
    {w : List Char} (hne : w ≠ []) (hw : ∀ c ∈ w, isBlank c = true) :
    ∃ r', Parses p' (w ++ rest) r' ∧ Tree.unplaced r.tree = Tree.unplaced r'.tree := by
  have hmode := hr.mode_eq
  have hmode' := (Progress.mode_eq_of_alike h).trans hmode
  obtain ⟨blanks, behind, rfl, hblanks, hbehind⟩ : ∃ blanks behind, rest = blanks ++ behind ∧
      (∀ c ∈ blanks, isBlank c = true) ∧ ∀ c ∈ behind.head?, isBlank c = false := by
    refine ⟨rest.takeWhile isBlank, rest.dropWhile isBlank, List.takeWhile_append_dropWhile.symm,
      List.all_eq_true.1 List.all_takeWhile, fun c hc => ?_⟩
    have hhead := List.head?_dropWhile_not isBlank rest
    rw [Option.mem_def.1 hc] at hhead
    exact hhead
  obtain ⟨q, hstack, hbehind'⟩ : ∃ q, unplacedStack q.stack = unplacedStack p'.stack ∧ Parses q behind r := by
    by_cases hempty : blanks = []
    · subst hempty
      exact ⟨p, h, hr⟩
    · have hcut : p.mode.cut (blanks ++ behind) = some (.blank, blanks.length) := by
        rw [hmode]
        exact cut_blanks _ hempty hblanks hbehind
      obtain ⟨q, hstack, hskip⟩ := Parses.skip rfl hcut
      exact ⟨q, by rw [hstack, h], (hskip r).1 hr⟩
  rw [← List.append_assoc]
  refine hbehind'.insert_piece hstack (k := .blank) rfl ?_
  rw [hmode']
  refine cut_blanks _ (by simp [hne]) (fun c hc => ?_) hbehind
  exact (List.mem_append.1 hc).elim (hw c) (hblanks c)

/-- Blanks and comments in front of a text change places only. -/
theorem Parses.insert (hr : Parses p rest r) (h : unplacedStack p.stack = unplacedStack p'.stack) {w : List Char}
    (hgap : IsGap w) : ∃ r', Parses p' (w ++ rest) r' ∧ Tree.unplaced r.tree = Tree.unplaced r'.tree := by
  have hmode := (Progress.mode_eq_of_alike h).trans hr.mode_eq
  cases hgap with
  | blanks hne hw => exact hr.insert_blanks h hne hw
  | block hbody =>
    refine hr.insert_piece h (k := .blockComment) rfl ?_
    rw [hmode]
    exact cut_blockComment _ hbody rest
  | @line mark body hmark hbody =>
    have hcut : p'.mode.cut (mark ++ body ++ '\n' :: rest) = some (.lineComment, (mark ++ body).length) := by
      rw [hmode]
      exact cut_lineComment _ hmark hbody rest
    obtain ⟨q, hstack, hskip⟩ := Parses.skip rfl hcut
    rw [← hstack] at h
    obtain ⟨r', hr', htree⟩ := hr.insert_blanks h (w := ['\n']) (by simp) (by simp [isBlank])
    refine ⟨r', ?_, htree⟩
    rw [List.append_assoc]
    exact (hskip r').2 hr'

end Insert

end ThriftGateway.Idl
