import ThriftGateway.Proofs.Idl.Reaching
import ThriftGateway.Proofs.Idl.Spelling

/-!
# The steps of the parser

`Parses` tells a run of the parser piece by piece, without fuel (`run_eq_ok_iff`).  `EndsWith` says where the parser
stands when it cuts the last piece of the front of a text; the tokens of a parse tree are such pieces
(`Parses.exists_endsWith`), and they are read alike whatever comes behind a blank or comment (`EndsWith.change`).
-/

namespace ThriftGateway.Idl

open Grammar (Position Token)

/-! ### Runs -/

/-- What is tried where the parser stands. -/
def Progress.mode (p : Progress) : Mode := modeOf (topState p.stack)

/-- What the parser has read after a piece: a blank or a comment leaves the stack as it is, a token is put on it. -/
def Progress.after? (p : Progress) (k : Terminal) (piece : List Char) : Option Progress :=
  if k.isIgnored then
    some { p with
      place := p.place.advance piece
      comments := if k = .blank then p.comments else tokenAt p.place k piece :: p.comments }
  else
    match take (takeFuel p.stack) p.stack k with
    | .shift s stack =>
      some { p with
        stack := (s, .leaf (tokenAt p.place k piece)) :: stack
        place := p.place.advance piece
        last := p.place }
    | .accept _ | .blocked _ => none

/-- The parser reads a text up to its end. -/
inductive Parses : Progress → List Char → Parsed → Prop
  | done {p : Progress} {tree : Tree} : take (takeFuel p.stack) p.stack .stop = .accept tree →
      Parses p [] ⟨tree, p.comments.reverse⟩
  | step {p q : Progress} {cs : List Char} {k : Terminal} {n : Nat} {r : Parsed} : p.mode.cut cs = some (k, n) →
      p.after? k (cs.take n) = some q → Parses q (cs.drop n) r → Parses p cs r

/-- A piece that is cut has characters, no more than there are. -/
theorem cut_bounds {m : Mode} {cs : List Char} {k : Terminal} {n : Nat} (h : m.cut cs = some (k, n)) :
    0 < n ∧ n ≤ cs.length := by
  obtain ⟨l, hfirst, -⟩ := cut_eq_some.1 h
  obtain ⟨-, -, -, hmatch, -⟩ := firstMatch_eq_some.1 hfirst
  exact match?_bounds hmatch

private theorem cut_nil_ne_some {m : Mode} {r : Terminal × Nat} : m.cut [] ≠ some r := by
  intro h
  have hbounds := cut_bounds h
  rw [List.length_nil] at hbounds
  omega

section Runs

-- one step of the parser is not to be carried out
attribute [local irreducible] take takeFuel Mode.cut modeOf

/-- A step of the parser at a character. -/
private theorem run_of_after? {fuel : Nat} {p q : Progress} {c : Char} {cs : List Char} {k : Terminal} {n : Nat}
    (hcut : p.mode.cut (c :: cs) = some (k, n)) (hafter : p.after? k ((c :: cs).take n) = some q) :
    run (fuel + 1) p (c :: cs) = run fuel q ((c :: cs).drop n) := by
  have hcut : (modeOf (topState p.stack)).cut (c :: cs) = some (k, n) := hcut
  rw [run_succ, hcut]
  dsimp only
  unfold Progress.after? at hafter
  split at hafter
  · rename_i hk
    obtain rfl := Option.some.inj hafter
    rw [if_pos hk]
  · rename_i hk
    rw [if_neg hk]
    cases htake : take (takeFuel p.stack) p.stack k with
    | shift s stack =>
      rw [htake] at hafter
      obtain rfl := Option.some.inj hafter
      rfl
    | accept | blocked =>
      rw [htake] at hafter
      cases hafter

/-- A run that succeeds begins with a step. -/
private theorem exists_after?_of_run {fuel : Nat} {p : Progress} {c : Char} {cs : List Char} {r : Parsed}
    (h : run (fuel + 1) p (c :: cs) = .ok r) :
    ∃ k n q, p.mode.cut (c :: cs) = some (k, n) ∧ p.after? k ((c :: cs).take n) = some q := by
  rw [run_succ] at h
  cases hcut : (modeOf (topState p.stack)).cut (c :: cs) with
  | none =>
    rw [hcut] at h
    cases h
  | some kn =>
    obtain ⟨k, n⟩ := kn
    rw [hcut] at h
    cases hafter : p.after? k ((c :: cs).take n) with
    | some q => exact ⟨k, n, q, hcut, hafter⟩
    | none =>
      dsimp only at h
      unfold Progress.after? at hafter
      split at hafter
      · cases hafter
      · rename_i hk
        rw [if_neg hk] at h
        cases htake : take (takeFuel p.stack) p.stack k with
        | shift s stack =>
          rw [htake] at hafter
          cases hafter
        | accept | blocked =>
          rw [htake] at h
          cases h

/-- The parser succeeds exactly if there is a run up to the end of the text. -/
theorem run_eq_ok_iff {fuel : Nat} {p : Progress} {cs : List Char} {r : Parsed} (hfuel : cs.length < fuel) :
    run fuel p cs = .ok r ↔ Parses p cs r := by
  induction fuel generalizing p cs with
  | zero => exact absurd hfuel (Nat.not_lt_zero _)
  | succ fuel ih =>
    cases cs with
    | nil =>
      rw [run_end]
      constructor
      · intro h
        cases htake : take (takeFuel p.stack) p.stack .stop with
        | accept tree =>
          rw [htake] at h
          obtain rfl := Except.ok.inj h
          exact .done htake
        | shift | blocked =>
          rw [htake] at h
          cases h
      · intro h
        cases h with
        | done htake => rw [htake]
        | step hcut => exact absurd hcut cut_nil_ne_some
    | cons c cs =>
      have hless : ∀ {k n}, p.mode.cut (c :: cs) = some (k, n) → ((c :: cs).drop n).length < fuel := by
        intro k n hcut
        have hpos := (cut_bounds hcut).1
        rw [List.length_drop]
        simp only [List.length_cons] at hfuel ⊢
        omega
      constructor
      · intro h
        obtain ⟨k, n, q, hcut, hafter⟩ := exists_after?_of_run h
        rw [run_of_after? hcut hafter] at h
        exact .step hcut hafter ((ih (hless hcut)).1 h)
      · intro h
        cases h with
        | step hcut hafter hrest => rw [run_of_after? hcut hafter, (ih (hless hcut)).2 hrest]

/-- A run begins with the piece that is cut first. -/
theorem Parses.of_cut {p : Progress} {cs : List Char} {r : Parsed} (h : Parses p cs r) {k : Terminal} {n : Nat}
    (hcut : p.mode.cut cs = some (k, n)) : ∃ q, p.after? k (cs.take n) = some q ∧ Parses q (cs.drop n) r := by
  cases h with
  | done => exact absurd hcut cut_nil_ne_some
  | step hcut' hafter hrest =>
    obtain ⟨rfl, rfl⟩ := Prod.mk.inj (Option.some.inj (hcut.symm.trans hcut'))
    exact ⟨_, hafter, hrest⟩

/-- A token that has been read is on top of the stack that its terminal has been shifted on. -/
theorem Progress.shift_of_after? {p q : Progress} {k : Terminal} {piece : List Char} (h : p.after? k piece = some q)
    (hk : k.isIgnored = false) :
    ∃ s stack, take (takeFuel p.stack) p.stack k = .shift s stack ∧
      q.stack = (s, .leaf (tokenAt p.place k piece)) :: stack := by
  unfold Progress.after? at h
  rw [hk, if_neg Bool.false_ne_true] at h
  split at h
  · rename_i s stack htake
    obtain rfl := Option.some.inj h
    exact ⟨s, stack, htake, rfl⟩
  · cases h
  · cases h

theorem Progress.place_of_after? {p q : Progress} {k : Terminal} {piece : List Char} (h : p.after? k piece = some q) :
    q.place = p.place.advance piece := by
  unfold Progress.after? at h
  split at h
  · obtain rfl := Option.some.inj h
    rfl
  · split at h
    · obtain rfl := Option.some.inj h
      rfl
    · cases h
    · cases h

theorem parseTree_eq_ok_iff {cs : List Char} {r : Parsed} : parseTree cs = .ok r ↔ Parses {} cs r :=
  run_eq_ok_iff (Nat.lt_succ_self _)

end Runs

/-- A text is parsed if its tree is found and its field numbers can be read. -/
theorem parse_eq_ok_iff {cs : List Char} {d : Document} :
    parse (String.ofList cs) = .ok d ↔
      ∃ r, Parses {} cs r ∧ numbersReadable r.tree = true ∧
        Document.ofTree (CommentIndex.ofText cs r.comments) r.tree = d := by
  unfold parse
  rw [String.toList_ofList]
  cases hparse : parseTree cs with
  | error e =>
    constructor
    · intro h
      cases h
    · rintro ⟨r, hr, -⟩
      rw [parseTree_eq_ok_iff.2 hr] at hparse
      cases hparse
  | ok r =>
    have hr := parseTree_eq_ok_iff.1 hparse
    constructor
    · intro h
      dsimp only at h
      split at h
      · rename_i hnumbers
        exact ⟨r, hr, hnumbers, Except.ok.inj h⟩
      · cases h
    · rintro ⟨r', hr', hnumbers, hd⟩
      rw [parseTree_eq_ok_iff.2 hr'] at hparse
      obtain rfl := Except.ok.inj hparse
      dsimp only
      rw [if_pos hnumbers, hd]

/-! ### The tokens of a tree -/

/-- The token belongs to a tree on the stack. -/
def InStack (token : Token Terminal) (stack : List Frame) : Prop := ∃ f ∈ stack, token ∈ f.2.tokens

theorem mem_tokensAll {token : Token Terminal} {ts : List Tree} :
    token ∈ Grammar.Tree.tokensAll ts ↔ ∃ t ∈ ts, token ∈ t.tokens := by
  induction ts with
  | nil => simp [Grammar.Tree.tokensAll]
  | cons t ts ih => simp [Grammar.Tree.tokensAll, ih]

section Taking

-- the table is not to be looked into
attribute [local irreducible] automaton states thrift Grammar.Automaton.action? Grammar.Automaton.move?

/-- A reduction adds no tokens. -/
private theorem InStack.of_reduce {token : Token Terminal} {stack stack' : List Frame}
    {p : Grammar.Production Terminal Category} (h : reduce stack p = some stack') (ht : InStack token stack') :
    InStack token stack := by
  unfold reduce at h
  obtain ⟨s, -, rfl⟩ := Option.map_eq_some_iff.1 h
  obtain ⟨f, hf, hmem⟩ := ht
  rcases List.mem_cons.1 hf with rfl | hf
  · obtain ⟨t, hmemt, htoken⟩ := mem_tokensAll.1 hmem
    rw [List.mem_reverse] at hmemt
    obtain ⟨g, hg, rfl⟩ := List.mem_map.1 hmemt
    exact ⟨g, List.mem_of_mem_take hg, htoken⟩
  · exact ⟨f, List.mem_of_mem_drop hf, hmem⟩

/-- Taking a terminal adds no tokens. -/
private theorem InStack.of_take_shift {token : Token Terminal} {k : Terminal} {fuel : Nat} {stack stack' : List Frame}
    {s : Nat} (h : take fuel stack k = .shift s stack') (ht : InStack token stack') : InStack token stack := by
  induction fuel generalizing stack with
  | zero => cases h
  | succ fuel ih =>
    obtain ⟨s, -, heq⟩ | ⟨s, tree, rest, -, -, heq⟩ | ⟨n, p, stack₁, -, -, hreduce, heq⟩ | heq :=
      take_succ_cases fuel stack k
    · rw [heq] at h
      cases h
      exact ht
    · rw [heq] at h
      cases h
    · exact .of_reduce hreduce (ih (heq ▸ h))
    · rw [heq] at h
      cases h

/-- The tree that is accepted is on the stack, after some reductions. -/
private theorem InStack.of_take_accept {token : Token Terminal} {k : Terminal} {fuel : Nat} {stack : List Frame}
    {tree : Tree} (h : take fuel stack k = .accept tree) (ht : token ∈ tree.tokens) : InStack token stack := by
  induction fuel generalizing stack with
  | zero => cases h
  | succ fuel ih =>
    obtain ⟨s, -, heq⟩ | ⟨s, tree', rest, -, rfl, heq⟩ | ⟨n, p, stack₁, -, -, hreduce, heq⟩ | heq :=
      take_succ_cases fuel stack k
    · rw [heq] at h
      cases h
    · rw [heq] at h
      cases h
      exact ⟨_, List.mem_cons_self, ht⟩
    · exact .of_reduce hreduce (ih (heq ▸ h))
    · rw [heq] at h
      cases h

end Taking

/-! ### Places -/

theorem advance_append (p : Position) (x y : List Char) : p.advance (x ++ y) = (p.advance x).advance y :=
  List.foldl_append

/-- Behind characters there is a later line, or a later column of the same line. -/
private theorem advance_later (p : Position) (cs : List Char) :
    p.line < (p.advance cs).line ∨
      (p.advance cs).line = p.line ∧ (p.advance cs).column = p.column + cs.length := by
  induction cs generalizing p with
  | nil => exact .inr ⟨rfl, rfl⟩
  | cons c cs ih =>
    have hstep : p.line < (p.after c).line ∨ (p.after c).line = p.line ∧ (p.after c).column = p.column + 1 := by
      unfold Position.after
      split
      · exact .inl (Nat.lt_succ_self _)
      · exact .inr ⟨rfl, rfl⟩
    have hrest := ih (p.after c)
    show p.line < ((p.after c).advance cs).line ∨ ((p.after c).advance cs).line = p.line ∧
      ((p.after c).advance cs).column = p.column + (cs.length + 1)
    omega

theorem eq_nil_of_advance {p : Position} {cs : List Char} (h : p.advance cs = p) : cs = [] := by
  have hlater := advance_later p cs
  rw [h] at hlater
  exact List.eq_nil_of_length_eq_zero (by omega)

/-- Different fronts of a text end at different places. -/
theorem eq_of_advance_eq {p : Position} {x y x' y' : List Char} (h : x ++ y = x' ++ y')
    (hplace : p.advance x = p.advance x') : x = x' := by
  obtain ⟨z, rfl, -⟩ | ⟨z, rfl, -⟩ := List.append_eq_append_iff.1 h
  · rw [advance_append] at hplace
    rw [eq_nil_of_advance hplace.symm, List.append_nil]
  · rw [advance_append] at hplace
    rw [eq_nil_of_advance hplace, List.append_nil]

/-! ### The last piece of the front of a text -/

/-- From `p` on, the parser cuts the front `x` of a text, with `y` behind it, into pieces; the last one is `piece`,
which it cuts for `k` at `q`. -/
inductive EndsWith (y : List Char) : Progress → List Char → Progress → Terminal → List Char → Prop
  | last {p : Progress} {x : List Char} {k : Terminal} : p.mode.cut (x ++ y) = some (k, x.length) →
      EndsWith y p x p k x
  | step {p p' q : Progress} {x piece : List Char} {l k : Terminal} {n : Nat} : p.mode.cut (x ++ y) = some (l, n) →
      n < x.length → p.after? l (x.take n) = some p' → EndsWith y p' (x.drop n) q k piece → EndsWith y p x q k piece

namespace EndsWith

variable {p q : Progress} {x y piece : List Char} {k : Terminal}

theorem ne_nil (h : EndsWith y p x q k piece) : x ≠ [] := by
  rintro rfl
  cases h with
  | last hcut => exact absurd (cut_bounds hcut).1 (Nat.lt_irrefl _)
  | step _ hn => exact Nat.not_lt_zero _ hn

theorem suffix (h : EndsWith y p x q k piece) : piece <:+ x := by
  induction h with
  | last => exact List.suffix_refl _
  | step _ _ _ _ ih => exact ih.trans (List.drop_suffix _ _)

/-- The last piece is cut in front of what comes behind. -/
theorem cut (h : EndsWith y p x q k piece) : q.mode.cut (piece ++ y) = some (k, piece.length) := by
  induction h with
  | last hcut => exact hcut
  | step _ _ _ _ ih => exact ih

/-- A run comes to the last piece of the front of its text. -/
theorem parses_last (h : EndsWith y p x q k piece) {r : Parsed} (hr : Parses p (x ++ y) r) :
    Parses q (piece ++ y) r := by
  induction h with
  | last => exact hr
  | step hcut hn hafter _ ih =>
    obtain ⟨p'', hafter', hrest⟩ := hr.of_cut hcut
    rw [List.take_append_of_le_length (Nat.le_of_lt hn), hafter, Option.some.injEq] at hafter'
    rw [List.drop_append_of_le_length (Nat.le_of_lt hn)] at hrest
    exact ih (hafter' ▸ hrest)

/-- A run goes through the front of its text. -/
theorem parses (h : EndsWith y p x q k piece) {r : Parsed} (hr : Parses p (x ++ y) r) :
    ∃ q', q.after? k piece = some q' ∧ Parses q' y r := by
  obtain ⟨q', hafter, hrest⟩ := (h.parses_last hr).of_cut h.cut
  rw [List.take_left] at hafter
  rw [List.drop_left] at hrest
  exact ⟨q', hafter, hrest⟩

/-- A run through the front of a text and one through the rest of it are a run. -/
theorem append (h : EndsWith y p x q k piece) {q' : Progress} (hafter : q.after? k piece = some q') {r : Parsed}
    (hr : Parses q' y r) : Parses p (x ++ y) r := by
  induction h with
  | last hcut =>
    refine .step hcut ?_ (q := q') ?_
    · rwa [List.take_left]
    · rwa [List.drop_left]
  | @step _ p'' _ _ _ _ _ _ hcut hn hafter' _ ih =>
    refine .step hcut (q := p'') ?_ ?_
    · rwa [List.take_append_of_le_length (Nat.le_of_lt hn)]
    · rw [List.drop_append_of_le_length (Nat.le_of_lt hn)]
      exact ih hafter

/-- All but the last piece of the front of a text are cut alike whatever comes behind a blank or comment. -/
theorem recut (h : EndsWith y p x q k piece) {z : List Char} (hz : AtGap z) {l : Terminal}
    (hlast : q.mode.cut (piece ++ z) = some (l, piece.length)) : EndsWith z p x q l piece := by
  induction h with
  | last => exact .last hlast
  | step hcut hn hafter _ ih =>
    refine .step (cut_append hcut (Nat.le_of_lt hn) (fun _ => hn) (fun _ hall => ?_) hz) hn hafter (ih hlast)
    exact absurd hn (by rw [hall]; exact Nat.lt_irrefl _)

/-- A token at the end of the front of a text is cut alike whatever comes behind a blank or comment; a base type's
name is an identifier only where no base type is tried. -/
theorem change (h : EndsWith y p x q k piece) (hk : k.isIgnored = false) {z : List Char} (hz : AtGap z)
    (hbase : k = .identifier → .baseType ∈ q.mode.tried → ∀ name ∈ baseTypeNames, piece ≠ name.toList) :
    EndsWith z p x q k piece :=
  h.recut hz (cut_append h.cut (Nat.le_refl _) (by simp [hk]) (fun hk _ => hbase hk) hz)

/-- The place behind the last piece is the place behind the front. -/
theorem advance (h : EndsWith y p x q k piece) : q.place.advance piece = p.place.advance x := by
  induction h with
  | last => rfl
  | @step p _ _ x _ _ _ n hcut hn hafter _ ih =>
    rw [ih, Progress.place_of_after? hafter, ← advance_append, List.take_append_drop]

end EndsWith

private theorem inStack_of_after? {token : Token Terminal} {p q : Progress} {k : Terminal} {piece : List Char}
    (h : p.after? k piece = some q) (ht : InStack token q.stack) :
    InStack token p.stack ∨ k.isIgnored = false ∧ token = tokenAt p.place k piece := by
  cases hk : k.isIgnored with
  | true =>
    unfold Progress.after? at h
    rw [hk, if_pos rfl] at h
    obtain rfl := Option.some.inj h
    exact .inl ht
  | false =>
    obtain ⟨s, stack, htake, hstack⟩ := Progress.shift_of_after? h hk
    obtain ⟨f, hf, hmem⟩ := ht
    rw [hstack] at hf
    rcases List.mem_cons.1 hf with rfl | hf
    · exact .inr ⟨rfl, by simpa [Grammar.Tree.tokens] using hmem⟩
    · exact .inl (.of_take_shift htake ⟨f, hf, hmem⟩)

/-- Each token of a parse tree is the last piece of a front of the text. -/
theorem Parses.exists_endsWith {p : Progress} {cs : List Char} {r : Parsed} (h : Parses p cs r) {token : Token Terminal}
    (ht : token ∈ r.tree.tokens) :
    InStack token p.stack ∨
      ∃ x y q k piece, cs = x ++ y ∧ EndsWith y p x q k piece ∧ k.isIgnored = false ∧
        token = tokenAt q.place k piece := by
  induction h with
  | done htake => exact .inl (.of_take_accept htake ht)
  | @step p q cs k n r hcut hafter hrest ih =>
    have hlength : (cs.take n).length = n := List.length_take_of_le (cut_bounds hcut).2
    obtain hstack | ⟨x, y, q', l, piece, hcs, hends, hl, htoken⟩ := ih ht
    · obtain hstack | ⟨hk, htoken⟩ := inStack_of_after? hafter hstack
      · exact .inl hstack
      · refine .inr ⟨cs.take n, cs.drop n, p, k, cs.take n, (List.take_append_drop n cs).symm, .last ?_, hk, htoken⟩
        rw [List.take_append_drop, hlength, hcut]
    · have hsplit : cs = (cs.take n ++ x) ++ y := by rw [List.append_assoc, ← hcs, List.take_append_drop]
      have hfront : (cs.take n ++ x).take n = cs.take n := by
        rw [List.take_append_of_le_length (Nat.le_of_eq hlength.symm), List.take_take, Nat.min_self]
      have hbehind : (cs.take n ++ x).drop n = x := by
        rw [List.drop_append_of_le_length (Nat.le_of_eq hlength.symm), List.drop_of_length_le (Nat.le_of_eq hlength),
          List.nil_append]
      refine .inr ⟨cs.take n ++ x, y, q', l, piece, hsplit, .step (hsplit ▸ hcut) ?_ (hfront.symm ▸ hafter) ?_, hl,
        htoken⟩
      · rw [List.length_append, hlength]
        exact Nat.lt_add_of_pos_right (List.length_pos_iff.2 hends.ne_nil)
      · rwa [hbehind]

end ThriftGateway.Idl
