import ThriftGateway.Proofs.Idl.Gaps

/-!
# Texts with blanks and comments inserted

Blanks and comments that are inserted directly after a token, or in front of everything, leave a parsed text a text of
the same document but for lines and descriptions, with one exception (`parse_inserted`).  Where base types are tried,
the name of one is read as an identifier only if a dot comes next (`HidesBaseType`).  With anything in front of the dot
it is a base type.  But the dot begins a number, and no state that takes a base type takes a number after an identifier
in its place (`rows_part`).
-/

namespace ThriftGateway.Idl

open Grammar (Action Position Token)
open Text (isNameStart isNamePart)

/-! ### Base types and identifiers in the table -/

/-- A state that takes base types reduces on them as it does on identifiers; if it shifts them, it takes no number
after an identifier. -/
private def rowParts (s : Nat) : Bool :=
  match automaton.action? thrift s .baseType, automaton.action? thrift s .identifier with
  | none, _ => true
  | some (.reduce m), some (.reduce n) => m = n
  | some (.shift _), some (.shift t) =>
    (match automaton.action? thrift t .doubleConstant with
      | some (.reduce n) => productions[n]? = some ⟨.named, [.terminal .identifier]⟩
      | _ => false) &&
    (automaton.move? thrift s .named).any fun u => (automaton.action? thrift u .doubleConstant).isNone
  | _, _ => false

private theorem rows_part : ((List.range automaton.states.size).all rowParts) = true := by
  decide +kernel

section Table

attribute [local irreducible] automaton states thrift productions Grammar.Automaton.action? Grammar.Automaton.move?

private theorem rowParts_of_action {s : Nat} {a : Action} (h : automaton.action? thrift s .baseType = some a) :
    rowParts s = true :=
  List.all_eq_true.1 rows_part s (List.mem_range.2 (lt_of_action h))

private theorem action_of_reduce {s n : Nat} (h : automaton.action? thrift s .baseType = some (.reduce n)) :
    automaton.action? thrift s .identifier = some (.reduce n) := by
  have hrow := rowParts_of_action h
  unfold rowParts at hrow
  rw [h] at hrow
  split at hrow
  · rename_i heq
    cases heq
  · rename_i heq hidentifier
    cases heq
    rw [hidentifier, of_decide_eq_true hrow]
  · rename_i heq _
    cases heq
  · cases hrow

private theorem action_of_shift {s t : Nat} (h : automaton.action? thrift s .baseType = some (.shift t)) :
    ∃ t' n u, automaton.action? thrift s .identifier = some (.shift t') ∧
      automaton.action? thrift t' .doubleConstant = some (.reduce n) ∧
      productions[n]? = some ⟨.named, [.terminal .identifier]⟩ ∧ automaton.move? thrift s .named = some u ∧
      automaton.action? thrift u .doubleConstant = none := by
  have hrow := rowParts_of_action h
  unfold rowParts at hrow
  rw [h] at hrow
  split at hrow
  · rename_i heq
    cases heq
  · rename_i heq _
    cases heq
  · rename_i t' heq hidentifier
    rw [Bool.and_eq_true] at hrow
    obtain ⟨hdouble, hmove⟩ := hrow
    obtain ⟨u, hu, hnone⟩ := (Option.any_eq_true _ _).1 hmove
    split at hdouble
    · rename_i n hn
      exact ⟨t', n, u, hidentifier, hn, of_decide_eq_true hdouble, hu, Option.isNone_iff_eq_none.1 hnone⟩
    · cases hdouble
  · cases hrow

/-- Stacks on which both a base type and an identifier are shifted are the same after the reductions before. -/
private theorem shift_of_take {fuel : Nat} {stack r r' : List Frame} {s s' : Nat}
    (h : take fuel stack .baseType = .shift s r) (h' : take fuel stack .identifier = .shift s' r') :
    r' = r ∧ automaton.action? thrift (topState r) .baseType = some (.shift s) ∧
      automaton.action? thrift (topState r) .identifier = some (.shift s') := by
  induction fuel generalizing stack with
  | zero => cases h
  | succ fuel ih =>
    obtain ⟨t, ha, heq⟩ | ⟨t, tree, rest, -, -, heq⟩ | ⟨n, p, stack₁, ha, hp, hreduce, heq⟩ | heq :=
      take_succ_cases fuel stack .baseType
    · rw [heq] at h
      cases h
      obtain ⟨t', -, -, ha', -⟩ := action_of_shift ha
      rw [take_of_shift ha'] at h'
      cases h'
      exact ⟨rfl, ha, ha'⟩
    · rw [heq] at h
      cases h
    · rw [take_of_reduce (action_of_reduce ha) hp hreduce] at h'
      exact ih (heq ▸ h) h'
    · rw [heq] at h
      cases h

/-- Where a base type is shifted, no number is shifted after an identifier. -/
private theorem not_shift_double {fuel : Nat} {stack r r' : List Frame} {s s' : Nat} {token : Token Terminal}
    (h : take fuel stack .baseType = .shift s r) (h' : take fuel stack .identifier = .shift s' r') {t : Nat}
    {q : List Frame} {fuel' : Nat} : take fuel' ((s', .leaf token) :: r') .doubleConstant ≠ .shift t q := by
  obtain ⟨rfl, hbase, hidentifier⟩ := shift_of_take h h'
  obtain ⟨t', n, u, ha, hdouble, hp, hmove, hnone⟩ := action_of_shift hbase
  obtain rfl : s' = t' := by
    rw [ha] at hidentifier
    cases hidentifier
    rfl
  have hdouble : automaton.action? thrift (topState ((s', .leaf token) :: r')) .doubleConstant = some (.reduce n) :=
    hdouble
  have hnone : automaton.action? thrift (topState ((u, .node .named [.leaf token]) :: r')) .doubleConstant = none :=
    hnone
  have hreduce : reduce ((s', .leaf token) :: r') ⟨.named, [.terminal .identifier]⟩ =
      some ((u, .node .named [.leaf token]) :: r') := by
    show (automaton.move? thrift (topState r') .named).map _ = _
    rw [hmove]
    rfl
  intro hshift
  cases fuel' with
  | zero => cases hshift
  | succ fuel' =>
    rw [take_of_reduce hdouble hp hreduce] at hshift
    cases fuel' with
    | zero => cases hshift
    | succ fuel' =>
      rw [take_succ, hnone, takeBy] at hshift
      cases hshift

end Table

/-! ### Hidden base types -/

/-- The front of a text ends with a base type's name that is read as an identifier although base types are tried
there. -/
def HidesBaseType (front behind : List Char) : Prop :=
  ∃ q, ∃ name ∈ baseTypeNames, EndsWith behind {} front q .identifier name.toList ∧ .baseType ∈ q.mode.tried

/-- Only a number begins with a point. -/
private theorem eq_double_of_cut {m : Mode} {rest : List Char} {k : Terminal} {n : Nat}
    (h : m.cut ('.' :: rest) = some (k, n)) : k = .doubleConstant := by
  have hall : ∀ t ∈ Terminal.all ++ [Terminal.stop], t.opensWith '.' = true → t = .doubleConstant := by decide
  obtain ⟨l, hfirst, hk⟩ := cut_eq_some.1 h
  obtain ⟨-, -, -, hmatch, -⟩ := firstMatch_eq_some.1 hfirst
  obtain rfl := hall l (mem_terminals l) (opensWith_of_match? hmatch)
  exact hk.symm

/-- A name goes on over name characters. -/
private theorem nameTail_append_of_forall {ds : List Char} (h : ∀ d ∈ ds, isNamePart d = true) (rest : List Char) :
    nameTail (ds ++ rest) = ds.length + nameTail rest := by
  induction ds with
  | nil => exact (Nat.zero_add _).symm
  | cons d ds ih =>
    rw [List.forall_mem_cons] at h
    have hdot : d ≠ '.' := by
      rintro rfl
      exact absurd h.1 (by decide)
    rw [List.cons_append, nameTail_of_ne_dot hdot, if_pos h.1, ih h.2, List.length_cons]
    omega

/-- Where base types are tried, the name of one is an identifier only in front of a dot. -/
private theorem exists_dot_of_cut {accepted : List Terminal} (htried : .baseType ∈ (Mode.ofAccepted accepted).tried)
    {name : String} (hname : name ∈ baseTypeNames) {behind : List Char}
    (hcut : (Mode.ofAccepted accepted).cut (name.toList ++ behind) = some (.identifier, name.toList.length)) :
    ∃ rest, behind = '.' :: rest := by
  obtain ⟨l, hfirst, hl⟩ := cut_eq_some.1 hcut
  obtain rfl : l = .identifier := by
    by_cases hidentifier : l = .identifier
    · exact hidentifier
    · rwa [Mode.wordOr, if_neg hidentifier] at hl
  obtain ⟨before, after, hts, hmatch, hbefore⟩ := firstMatch_eq_some.1 hfirst
  have hmem : .baseType ∈ before := by
    have hsorted := pairwise_tried accepted
    rw [hts] at htried hsorted
    rcases List.mem_append.1 htried with hmem | hmem
    · exact hmem
    · rcases List.mem_cons.1 hmem with heq | hmem
      · cases heq
      · have hlt := (List.pairwise_cons.1 (List.pairwise_append.1 hsorted).2.1).1 _ hmem
        exact absurd hlt (by decide)
  have hends : endsBaseType behind ≠ true := by
    intro hends
    have hnone : matchBaseType (name.toList ++ behind) = none := hbefore _ hmem
    rw [matchBaseType_append_of_ends hname hends] at hnone
    cases hnone
  cases behind with
  | nil => exact absurd rfl hends
  | cons c rest =>
    by_cases hdot : c = '.'
    · exact ⟨rest, by rw [hdot]⟩
    · have hpart : isNamePart c = true := by simpa [endsBaseType, hdot] using hends
      -- a name character would belong to the identifier
      have hparts : ∀ name ∈ baseTypeNames, name.toList ≠ [] ∧ name.toList.tail.all isNamePart = true := by decide
      obtain ⟨hne, htail⟩ := hparts name hname
      rw [List.all_eq_true] at htail
      generalize name.toList = cs at *
      obtain ⟨d, ds, rfl⟩ := List.exists_cons_of_ne_nil hne
      rw [List.tail_cons] at htail
      rw [Terminal.match?, List.cons_append, matchIdentifier, nameTail_append_of_forall htail, nameTail_of_ne_dot hdot,
        if_pos hpart] at hmatch
      split at hmatch
      · rw [Option.some.injEq, List.length_cons] at hmatch
        omega
      · cases hmatch

/-- In front of a blank or comment the name of a base type is cut as one where base types are tried. -/
private theorem cut_baseType {accepted : List Terminal} (htried : .baseType ∈ (Mode.ofAccepted accepted).tried)
    {name : String} (hname : name ∈ baseTypeNames) {z : List Char} (hz : AtGap z) :
    (Mode.ofAccepted accepted).cut (name.toList ++ z) = some (.baseType, name.toList.length) := by
  have hnumbers : ∀ name ∈ baseTypeNames, ∀ t ∈ Terminal.all, t.number < Terminal.baseType.number →
      t ∉ [Terminal.lineComment, .literal, .blockComment, .blank] ∧ t.match? name.toList = none := by decide
  refine cut_of_mem_tried htried (by decide) (matchBaseType_append_of_ends hname hz.endsBaseType) fun t ht => ?_
  obtain ⟨hspecial, hnone⟩ := hnumbers name hname t (mem_all_of_lt ht) ht
  rw [match?_append hz hspecial, hnone]

/-- A text does not parse with a blank or comment behind a hidden base type. -/
private theorem HidesBaseType.not_parses {front behind : List Char} (h : HidesBaseType front behind) {r : Parsed}
    (hr : Parses {} (front ++ behind) r) {z : List Char} (hz : AtGap z) (r' : Parsed) :
    ¬ Parses {} (front ++ z) r' := by
  obtain ⟨q, name, hname, hends, htried⟩ := h
  intro hr'
  obtain ⟨q₁, hafter₁, hrest₁⟩ := hends.parses hr
  obtain ⟨s₁, stack₁, htake₁, hstack₁⟩ := Progress.shift_of_after? hafter₁ rfl
  have hmode := (hends.parses_last hr).mode_eq
  rw [hmode] at htried
  have hcut := hends.cut
  rw [hmode] at hcut
  obtain ⟨rest, rfl⟩ := exists_dot_of_cut htried hname hcut
  have hends₂ : EndsWith z {} front q .baseType name.toList := by
    refine hends.recut hz ?_
    rw [hmode]
    exact cut_baseType htried hname hz
  obtain ⟨q₂, hafter₂, -⟩ := hends₂.parses hr'
  obtain ⟨s₂, stack₂, htake₂, -⟩ := Progress.shift_of_after? hafter₂ rfl
  cases hrest₁ with
  | @step _ q₃ _ k n _ hcut₃ hafter₃ _ =>
    obtain rfl := eq_double_of_cut hcut₃
    obtain ⟨s₃, stack₃, htake₃, -⟩ := Progress.shift_of_after? hafter₃ rfl
    rw [hstack₁] at htake₃
    exact not_shift_double htake₂ htake₁ htake₃

/-! ### Inserting -/

/-- The front of a text is empty or ends with a token: of the pieces that the parser cuts it into, the last one is no
blank and no comment. -/
def IsSeam (front behind : List Char) : Prop :=
  front = [] ∨ ∃ q k piece, EndsWith behind {} front q k piece ∧ k.isIgnored = false

/-- Where a token of the parse tree ends, the front of the text ends with a token. -/
private theorem isSeam_of_mem_tokens {front behind : List Char} {parsed : Parsed}
    (hparsed : parseTree (front ++ behind) = .ok parsed) {token : Token Terminal} (htoken : token ∈ parsed.tree.tokens)
    (hstop : token.stop = Position.origin.advance front) : IsSeam front behind := by
  obtain ⟨f, hf, -⟩ | ⟨x, y, q, k, piece, hsplit, hends, hk, rfl⟩ :=
    (parseTree_eq_ok_iff.1 hparsed).exists_endsWith htoken
  · cases hf
  · have hplace : Position.origin.advance x = Position.origin.advance front := hends.advance.symm.trans hstop
    obtain rfl := eq_of_advance_eq hsplit hplace.symm
    obtain rfl := List.append_cancel_left hsplit
    exact .inr ⟨q, k, piece, hends, hk⟩

/-- A run of blanks, a block comment, or a line comment with its end, inserted directly after a token or in front of
everything, leaves the text a text of the same document but for lines and descriptions; but if a base type is hidden
there, the text does not parse any more. -/
theorem parse_inserted {front behind gap : List Char} {d : Document}
    (hparse : parse (String.ofList (front ++ behind)) = .ok d) (hseam : IsSeam front behind) (hgap : IsGap gap) :
    (¬ HidesBaseType front behind →
      ∃ d', parse (String.ofList (front ++ gap ++ behind)) = .ok d' ∧ d'.flat = d.flat) ∧
    (HidesBaseType front behind → ∃ e, parse (String.ofList (front ++ gap ++ behind)) = .error e) := by
  obtain ⟨r, hr, hnumbers, rfl⟩ := parse_eq_ok_iff.1 hparse
  rw [List.append_assoc]
  constructor
  · intro hides
    obtain ⟨r', hr', htree⟩ : ∃ r', Parses {} (front ++ (gap ++ behind)) r' ∧
        Tree.unplaced r.tree = Tree.unplaced r'.tree := by
      obtain rfl | ⟨q, k, piece, hends, hk⟩ := hseam
      · exact hr.insert rfl hgap
      · obtain ⟨q', hafter, hrest⟩ := hends.parses hr
        obtain ⟨r', hr', htree⟩ := hrest.insert rfl hgap
        refine ⟨r', (hends.change hk (hgap.atGap behind) ?_).append hafter hr', htree⟩
        rintro rfl htried name hname rfl
        exact hides ⟨q, name, hname, hends, htried⟩
    refine ⟨_, parse_eq_ok_iff.2 ⟨r', hr', ?_, rfl⟩, ?_⟩
    · rw [← numbersReadable_unplaced, ← htree, numbersReadable_unplaced, hnumbers]
    · rw [← flat_ofTree_unplaced _ (CommentIndex.ofText [] []), ← htree, flat_ofTree_unplaced]
  · intro hides
    cases hnew : parse (String.ofList (front ++ (gap ++ behind))) with
    | error e => exact ⟨e, rfl⟩
    | ok d =>
      obtain ⟨r', hr', -⟩ := parse_eq_ok_iff.1 hnew
      exact absurd hr' (hides.not_parses hr (hgap.atGap behind) r')

private theorem exists_of_isOk {ε α : Type} {x : Except ε α} (h : x.isOk = true) : ∃ a, x = .ok a := by
  cases x with
  | ok a => exact ⟨a, rfl⟩
  | error e => cases h

/-- A seam as it can be decided. -/
private theorem isSeam_of_any {front behind : List Char}
    (h : (parseTree (front ++ behind)).toOption.any (fun parsed => parsed.tree.tokens.any fun token =>
      token.stop = Position.origin.advance front) = true) : IsSeam front behind := by
  obtain ⟨parsed, hparsed, htokens⟩ := (Option.any_eq_true _ _).1 h
  obtain ⟨token, htoken, hstop⟩ := List.any_eq_true.1 htokens
  refine isSeam_of_mem_tokens ?_ htoken (of_decide_eq_true hstop)
  cases hparse : parseTree (front ++ behind) with
  | ok r =>
    rw [hparse] at hparsed
    exact congrArg _ (Option.some.inj hparsed)
  | error e =>
    rw [hparse] at hparsed
    cases hparsed

/-- A comment between two numbers that touch, and a blank between the name of a base type and a number that touch. -/
theorem parse_inserted_touching :
    (IsSeam "const list<double> X=[a 1.5".toList ".5]".toList ∧ IsGap ['#', 'n', '\n'] ∧
      ¬ HidesBaseType "const list<double> X=[a 1.5".toList ".5]".toList ∧
      ∃ d d', parse (String.ofList ("const list<double> X=[a 1.5".toList ++ ".5]".toList)) = .ok d ∧
        parse (String.ofList ("const list<double> X=[a 1.5".toList ++ ['#', 'n', '\n'] ++ ".5]".toList)) = .ok d' ∧
        d'.flat = d.flat) ∧
    IsSeam "const list<double> X=[a i32".toList ".5]".toList ∧ IsGap [' '] ∧
      HidesBaseType "const list<double> X=[a i32".toList ".5]".toList ∧
      (∃ d, parse (String.ofList ("const list<double> X=[a i32".toList ++ ".5]".toList)) = .ok d) ∧
      ∃ e, parse (String.ofList ("const list<double> X=[a i32".toList ++ [' '] ++ ".5]".toList)) = .error e := by
  constructor
  · have hseam : IsSeam "const list<double> X=[a 1.5".toList ".5]".toList := isSeam_of_any (by decide +kernel)
    have hgap : IsGap (['#'] ++ ['n'] ++ ['\n']) := .line (by decide) (by decide)
    have hhides : ¬ HidesBaseType "const list<double> X=[a 1.5".toList ".5]".toList := by
      rintro ⟨q, name, hname, hends, -⟩
      have hnone : ∀ name ∈ baseTypeNames, ¬ name.toList <:+ "const list<double> X=[a 1.5".toList := by decide
      exact hnone name hname hends.suffix
    obtain ⟨d, hd⟩ := exists_of_isOk (show (parse (String.ofList
      ("const list<double> X=[a 1.5".toList ++ ".5]".toList))).isOk = true by decide +kernel)
    obtain ⟨d', hd', hflat⟩ := (parse_inserted hd hseam hgap).1 hhides
    exact ⟨hseam, hgap, hhides, d, d', hd, hd', hflat⟩
  · have hseam : IsSeam "const list<double> X=[a i32".toList ".5]".toList := isSeam_of_any (by decide +kernel)
    have hgap : IsGap [' '] := .blanks (by simp) (by simp [isBlank])
    have hnew : (parse (String.ofList
        ("const list<double> X=[a i32".toList ++ [' '] ++ ".5]".toList))).isOk = false := by decide +kernel
    obtain ⟨d, hd⟩ := exists_of_isOk (show (parse (String.ofList
      ("const list<double> X=[a i32".toList ++ ".5]".toList))).isOk = true by decide +kernel)
    have hhides : HidesBaseType "const list<double> X=[a i32".toList ".5]".toList := by
      refine Classical.byContradiction fun hno => ?_
      obtain ⟨d', hd', -⟩ := (parse_inserted hd hseam hgap).1 hno
      rw [hd'] at hnew
      cases hnew
    exact ⟨hseam, hgap, hhides, ⟨d, hd⟩, (parse_inserted hd hseam hgap).2 hhides⟩

/-- Where the name of a base type touches a number, what is inserted between them is not always without effect. -/
theorem not_parse_inserted :
    ¬ ∀ (front behind gap : List Char) (d : Document), parse (String.ofList (front ++ behind)) = .ok d →
      IsSeam front behind → IsGap gap →
      ∃ d', parse (String.ofList (front ++ gap ++ behind)) = .ok d' ∧ d'.flat = d.flat := by
  intro hall
  have hnew : (parse (String.ofList ("const list<double> X=[a i32".toList ++ [' '] ++ ".5]".toList))).isOk = false := by
    decide +kernel
  have hseam : IsSeam "const list<double> X=[a i32".toList ".5]".toList := isSeam_of_any (by decide +kernel)
  have hgap : IsGap [' '] := .blanks (by simp) (by simp [isBlank])
  obtain ⟨d, hd⟩ := exists_of_isOk (show (parse (String.ofList
    ("const list<double> X=[a i32".toList ++ ".5]".toList))).isOk = true by decide +kernel)
  obtain ⟨d', hd', -⟩ := hall _ _ _ d hd hseam hgap
  rw [hd'] at hnew
  cases hnew

end ThriftGateway.Idl
