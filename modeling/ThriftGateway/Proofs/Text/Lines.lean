import Mathlib.Data.List.DropRight
import ThriftGateway.Text.Blank

/-!
# Lines that line feeds end

Other characters than line feeds end lines, too.  Where none of them stands in a text, except for carriage returns right
before line feeds (`hasPlainLines`), the lines of the text are what stands between its line feeds (`lineAt_eq`).  Every
text has a line at each place that a character other than a line feed stands at (`count_lt_length_lines`).
-/

namespace ThriftGateway.Text

/-! ### Cutting at a character -/

private theorem splitAt_ne_nil (c : Char) (cs : List Char) : splitAt c cs ≠ [] := by
  cases cs with
  | nil => simp [splitAt]
  | cons d cs =>
    rw [splitAt]
    split
    · simp
    · split <;> simp

/-- The first part ends where the character stands first. -/
private theorem head?_splitAt (c : Char) (cs : List Char) : (splitAt c cs)[0]? = some (cs.takeWhile (· ≠ c)) := by
  induction cs with
  | nil => rfl
  | cons d cs ih =>
    rw [splitAt, List.takeWhile_cons]
    by_cases hd : d = c
    · simp [hd]
    · rw [if_neg hd, if_pos (by simpa using hd)]
      cases hs : splitAt c cs with
      | nil => exact absurd hs (splitAt_ne_nil c cs)
      | cons l ls =>
        rw [hs] at ih
        obtain rfl := Option.some.inj ih
        rfl

/-- A character at the front belongs to the first part, or makes an empty one. -/
private theorem getElem?_splitAt_cons (c d : Char) (cs : List Char) (i : Nat) :
    (splitAt c (d :: cs))[i + 1]? = if d = c then (splitAt c cs)[i]? else (splitAt c cs)[i + 1]? := by
  rw [splitAt]
  split
  · rfl
  · cases hs : splitAt c cs with
    | nil => exact absurd hs (splitAt_ne_nil c cs)
    | cons l ls => rfl

/-! ### The line at a place -/

/-- Line `n` of a text, counted from 1, where line feeds alone end lines; empty past the last one. -/
def lineAt (cs : List Char) (n : Nat) : List Char := ((splitAt '\n' cs)[n - 1]?).getD []

/-- What stands behind the last line feed. -/
def lastLine (cs : List Char) : List Char := cs.rtakeWhile (· ≠ '\n')

theorem lastLine_append_feed (cs : List Char) : lastLine (cs ++ ['\n']) = [] :=
  List.rtakeWhile_concat_neg _ _ _ (by simp)

theorem lastLine_append_of_not_mem (cs : List Char) {l : List Char} (h : '\n' ∉ l) :
    lastLine (cs ++ l) = lastLine cs ++ l := by
  have hall : ∀ c ∈ l.reverse, decide (c ≠ '\n') = true := by
    intro c hc
    have hne : c ≠ '\n' := fun heq => h (heq ▸ List.mem_reverse.1 hc)
    simpa using hne
  unfold lastLine List.rtakeWhile
  rw [List.reverse_append, List.takeWhile_append_of_pos hall, List.reverse_append, List.reverse_reverse]

private theorem lastLine_of_not_mem {l : List Char} (h : '\n' ∉ l) : lastLine l = l := lastLine_append_of_not_mem [] h

/-- What stands before a line feed does not matter behind it. -/
private theorem lastLine_append_of_mem (cs : List Char) {l : List Char} (h : '\n' ∈ l) :
    lastLine (cs ++ l) = lastLine l := by
  obtain ⟨front, behind, rfl, hbehind⟩ : ∃ front behind, l = front ++ ['\n'] ++ behind ∧ '\n' ∉ behind := by
    obtain ⟨a, b, hab, hb⟩ := List.eq_append_cons_of_mem (List.mem_reverse.2 h)
    refine ⟨b.reverse, a.reverse, ?_, by simpa using hb⟩
    rw [← List.reverse_reverse l, hab]
    simp
  rw [← List.append_assoc, lastLine_append_of_not_mem _ hbehind, lastLine_append_of_not_mem _ hbehind,
    ← List.append_assoc, lastLine_append_feed, lastLine_append_feed]

/-- The line at a place consists of what stands before the place, and what stands behind it. -/
theorem lineAt_append (x y : List Char) :
    lineAt (x ++ y) (x.count '\n' + 1) = lastLine x ++ y.takeWhile (· ≠ '\n') := by
  have hline : (splitAt '\n' (x ++ y))[x.count '\n']? = some (lastLine x ++ y.takeWhile (· ≠ '\n')) := by
    induction x with
    | nil => exact head?_splitAt '\n' y
    | cons c x ih =>
      by_cases hc : c = '\n'
      · rw [List.cons_append, hc, List.count_cons_self, getElem?_splitAt_cons, if_pos rfl, ih]
        by_cases hx : '\n' ∈ x
        · rw [← List.singleton_append, lastLine_append_of_mem ['\n'] hx]
        · rw [← List.singleton_append, lastLine_append_of_not_mem _ hx, lastLine_of_not_mem hx]
          rfl
      · rw [List.count_cons_of_ne hc]
        by_cases hx : '\n' ∈ x
        · obtain ⟨n, hn⟩ : ∃ n, x.count '\n' = n + 1 := ⟨x.count '\n' - 1, by
            have := List.count_pos_iff.2 hx
            omega⟩
          rw [hn] at ih ⊢
          rw [List.cons_append, getElem?_splitAt_cons, if_neg hc, ih, ← List.singleton_append,
            lastLine_append_of_mem [c] hx]
        · have hcx : '\n' ∉ c :: x := by simp [Ne.symm hc, hx]
          rw [List.count_eq_zero_of_not_mem hx, head?_splitAt, lastLine_of_not_mem hcx,
            List.takeWhile_append_of_pos fun d hd => ?_]
          simpa using fun heq : d = '\n' => hcx (heq ▸ hd)
  unfold lineAt
  rw [Nat.add_sub_cancel, hline]
  rfl

/-! ### Other ends of lines -/

/-- Lines are ended by line feeds only, with or without a carriage return before them. -/
def hasPlainLines : List Char → Bool
  | [] => true
  | '\r' :: '\n' :: cs => hasPlainLines cs
  | c :: cs => (c = '\n' || !endsLine c) && hasPlainLines cs

private theorem ne_feed {c : Char} (h : ¬endsLine c = true) : c ≠ '\n' := by
  rintro rfl
  exact h (by decide)

section Cons

variable {c : Char} {cs : List Char} (h : ∀ rest, c = '\r' → cs = '\n' :: rest → False)

include h

private theorem lines_cons : lines (c :: cs) = if endsLine c then [] :: lines cs else
    match lines cs with
    | [] => [[c]]
    | l :: ls => (c :: l) :: ls :=
  lines.eq_3 c cs h

private theorem hasPlainLines_cons : hasPlainLines (c :: cs) = ((c = '\n' || !endsLine c) && hasPlainLines cs) := by
  rw [hasPlainLines]
  exact h

end Cons

/-- In such a text, a line is what stands between line feeds, without the carriage return at its end. -/
theorem lineAt_eq {cs : List Char} (h : hasPlainLines cs = true) (n : Nat) :
    lineAt cs n = ((lines cs)[n - 1]?).getD [] ∨ lineAt cs n = ((lines cs)[n - 1]?).getD [] ++ ['\r'] := by
  unfold lineAt
  generalize n - 1 = i
  induction cs using lines.induct generalizing i with
  | case1 =>
    left
    cases i <;> rfl
  | case2 cs ih =>
    have h : hasPlainLines cs = true := h
    have hsplit : splitAt '\n' ('\r' :: '\n' :: cs) = ['\r'] :: splitAt '\n' cs := by
      rw [splitAt, if_neg (by decide), splitAt, if_pos rfl]
    rw [hsplit, lines]
    cases i with
    | zero => exact .inr rfl
    | succ i => exact ih h i
  | case3 c cs hc hend ih =>
    rw [hasPlainLines_cons hc, hend, Bool.not_true, Bool.or_false, Bool.and_eq_true] at h
    obtain ⟨hfeed, h⟩ := h
    rw [lines_cons hc, if_pos hend, of_decide_eq_true hfeed, splitAt, if_pos rfl]
    cases i with
    | zero => exact .inl rfl
    | succ i => exact ih h i
  | case4 c cs hc hend hlines ih =>
    rw [hasPlainLines_cons hc, Bool.and_eq_true] at h
    obtain ⟨l, ls, hs⟩ := List.exists_cons_of_ne_nil (splitAt_ne_nil '\n' cs)
    rw [lines_cons hc, if_neg hend, splitAt, if_neg (ne_feed hend), hlines, hs]
    have ih := ih h.2 i
    rw [hlines, hs] at ih
    cases i with
    | zero => exact ih.imp (congrArg (c :: ·)) (congrArg (c :: ·))
    | succ i => exact ih
  | case5 c cs hc hend l' ls' hlines ih =>
    rw [hasPlainLines_cons hc, Bool.and_eq_true] at h
    obtain ⟨l, ls, hs⟩ := List.exists_cons_of_ne_nil (splitAt_ne_nil '\n' cs)
    rw [lines_cons hc, if_neg hend, splitAt, if_neg (ne_feed hend), hlines, hs]
    have ih := ih h.2 i
    rw [hlines, hs] at ih
    cases i with
    | zero => exact ih.imp (congrArg (c :: ·)) (congrArg (c :: ·))
    | succ i => exact ih

/-! ### How many lines there are -/

private theorem lines_ne_nil (c : Char) (cs : List Char) : lines (c :: cs) ≠ [] := by
  rw [lines.eq_def]
  split
  · simp_all
  · simp
  · split
    · simp
    · split <;> simp

/-- A line feed at the front of a text is one more line; no other character makes lines fewer. -/
private theorem length_lines_le_cons {c : Char} {cs : List Char} (h : ∀ rest, c = '\r' → cs = '\n' :: rest → False) :
    (lines cs).length + [c].count '\n' ≤ (lines (c :: cs)).length := by
  rw [lines_cons h]
  split
  · have hle : [c].count '\n' ≤ 1 := List.count_le_length
    rw [List.length_cons]
    omega
  · rename_i hend
    rw [List.count_eq_zero_of_not_mem (by simpa using (ne_feed hend).symm)]
    split
    · rename_i hnil
      rw [hnil]
      exact Nat.zero_le _
    · rename_i hcons
      rw [hcons]
      exact Nat.le_refl _

/-- A character that is no line feed stands on one of the lines, however lines are ended. -/
theorem count_lt_length_lines (x : List Char) {c : Char} (hc : c ≠ '\n') (y : List Char) :
    x.count '\n' < (lines (x ++ c :: y)).length := by
  have hstep : ∀ {d : Char} {x : List Char}, (∀ rest, d = '\r' → x = '\n' :: rest → False) →
      x.count '\n' < (lines (x ++ c :: y)).length →
      (d :: x).count '\n' < (lines (d :: x ++ c :: y)).length := by
    intro d x hpair ih
    have hcount : ([d] ++ x).count '\n' = [d].count '\n' + x.count '\n' := List.count_append
    rw [List.singleton_append] at hcount
    have hbehind : ∀ rest, d = '\r' → x ++ c :: y = '\n' :: rest → False := by
      intro rest hd hfeed
      cases x with
      | nil => exact hc (List.cons.inj hfeed).1
      | cons e x => exact hpair x hd (by rw [(List.cons.inj hfeed).1])
    have hle := length_lines_le_cons hbehind
    rw [List.cons_append]
    omega
  induction x using lines.induct with
  | case1 => exact List.length_pos_iff.2 (lines_ne_nil c y)
  | case2 x ih =>
    rw [List.count_cons_of_ne (by decide), List.count_cons_self]
    exact Nat.succ_lt_succ ih
  | case3 d x hpair _ ih | case4 d x hpair _ _ ih | case5 d x hpair _ _ _ _ ih => exact hstep hpair ih

end ThriftGateway.Text
