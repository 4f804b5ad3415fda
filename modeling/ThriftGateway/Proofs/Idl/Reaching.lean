import ThriftGateway.Proofs.Idl.Cutting

/-!
# Tokens in front of other texts

How a token is cut does not depend on the text behind it, as long as a blank, a comment or nothing comes next: what a
terminal matches at the front of `x ++ y` it matches at the front of `x`, unless it goes beyond `x` (`Overruns`).  Only
a base type looks one character beyond its end.  So a cut within `x` stays as it is when another text takes the place
of `y` (`cut_append`), except that a base type's name is an identifier in front of a dot.
-/

namespace ThriftGateway.Idl

open Text (isDigit isHexDigit isNameStart isNamePart)

/-! ### Within a text or beyond it -/

/-- A matcher does with `x ++ y` what it does with `x`, or goes beyond `x`. -/
def Overruns (f : List Char → Option Nat) (x y : List Char) : Prop :=
  f (x ++ y) = f x ∨ ∃ n, f (x ++ y) = some n ∧ x.length < n

theorem Overruns.eq_some {f : List Char → Option Nat} {x y : List Char} (h : Overruns f x y) {n : Nat}
    (hn : f (x ++ y) = some n) (hle : n ≤ x.length) : f x = some n := by
  obtain heq | ⟨m, hm, hlt⟩ := h
  · rw [← heq, hn]
  · rw [hn, Option.some.injEq] at hm
    omega

private theorem Overruns.eq_none {f : List Char → Option Nat} {x y : List Char} (h : Overruns f x y)
    (hn : f (x ++ y) = none) : f x = none := by
  obtain heq | ⟨m, hm, -⟩ := h
  · rw [← heq, hn]
  · rw [hn] at hm
    cases hm

/-- What matches nothing at the front of `x` alone has to go beyond `x`. -/
private theorem overruns_of_none {f : List Char → Option Nat} {x y : List Char} (hx : f x = none)
    (hlong : ∀ n, f (x ++ y) = some n → x.length < n) : Overruns f x y := by
  cases hxy : f (x ++ y) with
  | none => exact Or.inl (hxy.trans hx.symm)
  | some n => exact Or.inr ⟨n, hxy, hlong n hxy⟩

theorem Overruns.or {f g : List Char → Option Nat} {x y : List Char} (hf : Overruns f x y) (hg : Overruns g x y) :
    Overruns (fun cs => (f cs).or (g cs)) x y := by
  obtain hf | ⟨n, hn, hlt⟩ := hf
  · cases hx : f x with
    | some n => exact Or.inl (by simp [hf, hx])
    | none =>
      obtain hg | ⟨n, hn, hlt⟩ := hg
      · exact Or.inl (by simp [hf, hx, hg])
      · exact Or.inr ⟨n, by simp [hf, hx, hn], hlt⟩
  · exact Or.inr ⟨n, by simp [hn], hlt⟩

/-- What stands in front of a matcher's text moves its end. -/
theorem Overruns.shift {f g : List Char → Option Nat} {x x' y : List Char} (h : Overruns g x' y) (a : Nat)
    (hx : f x = (g x').map (a + ·)) (hxy : f (x ++ y) = (g (x' ++ y)).map (a + ·)) (ha : x.length = a + x'.length) :
    Overruns f x y := by
  obtain heq | ⟨n, hn, hlt⟩ := h
  · exact Or.inl (by rw [hx, hxy, heq])
  · exact Or.inr ⟨a + n, by rw [hxy, hn, Option.map_some], by omega⟩

private theorem spanLength_le (p : Char → Bool) (cs : List Char) : spanLength p cs ≤ cs.length :=
  (List.takeWhile_prefix p).length_le

private theorem spanLength_overruns (p : Char → Bool) (x y : List Char) :
    spanLength p (x ++ y) = spanLength p x ∨
      spanLength p x = x.length ∧ x.length < spanLength p (x ++ y) := by
  unfold spanLength
  rw [List.takeWhile_append]
  split
  · rename_i hall
    cases hy : (y.takeWhile p).length with
    | zero => exact Or.inl (by rw [List.length_append, hy, Nat.add_zero, hall])
    | succ n => exact Or.inr ⟨hall, by rw [List.length_append]; omega⟩
  · exact Or.inl rfl

/-- A run that ends within `x` ends there whatever comes behind. -/
private theorem spanLength_append_of_lt {p : Char → Bool} {x y : List Char} (h : spanLength p (x ++ y) < x.length)
    (z : List Char) : spanLength p (x ++ z) = spanLength p (x ++ y) := by
  have hx : ∀ z, (x.takeWhile p).length ≠ x.length → (x ++ z).takeWhile p = x.takeWhile p := fun z hne => by
    rw [List.takeWhile_append, if_neg hne]
  have hne : (x.takeWhile p).length ≠ x.length := by
    intro hall
    unfold spanLength at h
    rw [List.takeWhile_append, if_pos hall, List.length_append] at h
    omega
  unfold spanLength
  rw [hx z hne, hx y hne]

/-! ### Numbers -/

private theorem splitSign_cons_append (c : Char) (x y : List Char) :
    splitSign (c :: x ++ y) = ((splitSign (c :: x)).1, (splitSign (c :: x)).2 ++ y) := by
  by_cases hp : c = '+'
  · subst hp; rfl
  · by_cases hm : c = '-'
    · subst hm; rfl
    · simp [splitSign, hp, hm]

/-- An optional sign and digits, as the digits behind the sign. -/
private theorem matchInt_eq (cs : List Char) :
    matchInt cs = (if spanLength isDigit (splitSign cs).2 = 0 then none
      else some (spanLength isDigit (splitSign cs).2)).map ((splitSign cs).1 + ·) := by
  unfold matchInt
  dsimp only
  split <;> rfl

private theorem matchInt_bounds {cs : List Char} {n : Nat} (h : matchInt cs = some n) :
    0 < n ∧ n ≤ cs.length := by
  rw [matchInt_eq] at h
  obtain ⟨d, hd, rfl⟩ := Option.map_eq_some_iff.1 h
  split at hd
  · cases hd
  · obtain rfl := Option.some.inj hd
    have hspan := spanLength_le isDigit (splitSign cs).2
    have hlength := splitSign_length cs
    omega

private theorem matchInt_overruns (x y : List Char) : Overruns matchInt x y := by
  cases x with
  | nil => exact overruns_of_none rfl fun n h => (matchInt_bounds h).1
  | cons c x =>
    have hdigits : Overruns (fun cs => if spanLength isDigit cs = 0 then none else some (spanLength isDigit cs))
        (splitSign (c :: x)).2 y := by
      obtain heq | ⟨-, hlt⟩ := spanLength_overruns isDigit (splitSign (c :: x)).2 y
      · exact Or.inl (by simp only [heq])
      · exact Or.inr ⟨_, if_neg (by omega), hlt⟩
    refine hdigits.shift _ (matchInt_eq _) ?_ (splitSign_length _).symm
    rw [matchInt_eq, splitSign_cons_append]

private theorem matchExponent_bounds {cs : List Char} {n : Nat} (h : matchExponent cs = some n) :
    0 < n ∧ n ≤ cs.length := by
  unfold matchExponent at h
  split at h
  · obtain ⟨m, hm, rfl⟩ := Option.map_eq_some_iff.1 h
    exact ⟨Nat.zero_lt_succ m, Nat.succ_le_succ (matchInt_bounds hm).2⟩
  · obtain ⟨m, hm, rfl⟩ := Option.map_eq_some_iff.1 h
    exact ⟨Nat.zero_lt_succ m, Nat.succ_le_succ (matchInt_bounds hm).2⟩
  · cases h

private theorem matchExponent_overruns (x y : List Char) : Overruns matchExponent x y := by
  have hsucc : (1 + · : Nat → Nat) = (· + 1) := funext fun n => Nat.add_comm 1 n
  cases x with
  | nil => exact overruns_of_none rfl fun n h => (matchExponent_bounds h).1
  | cons c x =>
    by_cases he : c = 'e'
    · subst he
      exact (matchInt_overruns x y).shift 1 (by rw [hsucc]; rfl) (by rw [hsucc]; rfl) (by simp [Nat.add_comm])
    · by_cases hE : c = 'E'
      · subst hE
        exact (matchInt_overruns x y).shift 1 (by rw [hsucc]; rfl) (by rw [hsucc]; rfl) (by simp [Nat.add_comm])
      · exact Or.inl (by simp [matchExponent, he, hE])

/-- `0x` and hexadecimal digits. -/
private def unsignedHex : List Char → Option Nat
  | '0' :: 'x' :: cs => if spanLength isHexDigit cs = 0 then none else some (2 + spanLength isHexDigit cs)
  | _ => none

private theorem matchHex_eq (cs : List Char) :
    matchHex cs = (unsignedHex (splitSign cs).2).map ((splitSign cs).1 + ·) := by
  unfold matchHex
  dsimp only
  generalize (splitSign cs).2 = behind
  fun_cases unsignedHex behind with
  | case1 cs hzero => exact if_pos hzero
  | case2 cs hzero => rw [Option.map_some, ← Nat.add_assoc]; exact if_neg hzero
  | case3 behind hno =>
    split
    · exact absurd rfl (hno _)
    · rfl

private theorem unsignedHex_bounds {cs : List Char} {n : Nat} (h : unsignedHex cs = some n) :
    2 < n ∧ n ≤ cs.length := by
  unfold unsignedHex at h
  split at h
  · rename_i cs'
    split at h
    · cases h
    · obtain rfl := Option.some.inj h
      have hspan := spanLength_le isHexDigit cs'
      simp only [List.length_cons]
      omega
  · cases h

private theorem unsignedHex_overruns (x y : List Char) : Overruns unsignedHex x y := by
  by_cases hx : x.length < 2
  · -- `x` ends before the first digit
    have hnone : unsignedHex x = none := by
      unfold unsignedHex
      split
      · simp only [List.length_cons] at hx
        omega
      · rfl
    exact overruns_of_none hnone fun n h => Nat.lt_trans hx (unsignedHex_bounds h).1
  · match x with
    | [] | [_] => simp at hx
    | c :: d :: x =>
      by_cases hcd : c = '0' ∧ d = 'x'
      · obtain ⟨rfl, rfl⟩ := hcd
        obtain heq | ⟨hall, hlt⟩ := spanLength_overruns isHexDigit x y
        · exact Or.inl (by simp only [List.cons_append, unsignedHex, heq])
        · have hlength : ('0' :: 'x' :: x).length = x.length + 2 := rfl
          refine Or.inr ⟨2 + spanLength isHexDigit (x ++ y), ?_, by omega⟩
          exact if_neg (Nat.ne_of_gt (Nat.zero_lt_of_lt hlt))
      · have hnone : ∀ cs, unsignedHex (c :: d :: cs) = none := by
          intro cs
          unfold unsignedHex
          split
          · rename_i heq
            cases heq
            exact absurd ⟨rfl, rfl⟩ hcd
          · rfl
        exact Or.inl (by rw [List.cons_append, List.cons_append, hnone, hnone])

private theorem matchHex_bounds {cs : List Char} {n : Nat} (h : matchHex cs = some n) :
    0 < n ∧ n ≤ cs.length := by
  rw [matchHex_eq] at h
  obtain ⟨m, hm, rfl⟩ := Option.map_eq_some_iff.1 h
  have hbounds := unsignedHex_bounds hm
  have hlength := splitSign_length cs
  omega

private theorem matchHex_overruns {x : List Char} (hx : x ≠ []) (y : List Char) : Overruns matchHex x y := by
  obtain ⟨c, x, rfl⟩ := List.exists_cons_of_ne_nil hx
  refine (unsignedHex_overruns (splitSign (c :: x)).2 y).shift _ (matchHex_eq _) ?_ (splitSign_length _).symm
  rw [matchHex_eq, splitSign_cons_append]

/-- Digits and an exponent. -/
private def matchWhole (cs : List Char) : Option Nat :=
  if spanLength isDigit cs = 0 then none
  else (matchExponent (cs.drop (spanLength isDigit cs))).map (spanLength isDigit cs + ·)

private theorem drop_append_of_eq {p : Char → Bool} {x y : List Char}
    (h : spanLength p (x ++ y) = spanLength p x) :
    (x ++ y).drop (spanLength p (x ++ y)) = x.drop (spanLength p x) ++ y ∧
      x.length = spanLength p x + (x.drop (spanLength p x)).length := by
  have hle := spanLength_le p x
  rw [h, List.drop_append_of_le_length hle, List.length_drop]
  exact ⟨rfl, by omega⟩

private theorem matchWhole_bounds {cs : List Char} {n : Nat} (h : matchWhole cs = some n) :
    0 < n ∧ spanLength isDigit cs ≤ n ∧ n ≤ cs.length := by
  unfold matchWhole at h
  split at h
  · cases h
  · obtain ⟨m, hm, rfl⟩ := Option.map_eq_some_iff.1 h
    have hle := (matchExponent_bounds hm).2
    have hspan := spanLength_le isDigit cs
    rw [List.length_drop] at hle
    omega

private theorem matchWhole_overruns (x y : List Char) : Overruns matchWhole x y := by
  obtain heq | ⟨hall, hlt⟩ := spanLength_overruns isDigit x y
  · obtain ⟨hdrop, hlength⟩ := drop_append_of_eq heq
    by_cases hzero : spanLength isDigit x = 0
    · exact Or.inl (by simp [matchWhole, heq, hzero])
    · refine (matchExponent_overruns (x.drop (spanLength isDigit x)) y).shift (spanLength isDigit x) ?_ ?_ hlength
      · rw [matchWhole, if_neg hzero]
      · rw [matchWhole, hdrop, heq, if_neg hzero]
  · -- the digits go on behind `x`, so `x` has no exponent
    have hnone : matchWhole x = none := by
      unfold matchWhole
      rw [hall, List.drop_length]
      split <;> rfl
    exact overruns_of_none hnone fun n h => Nat.lt_of_lt_of_le hlt (matchWhole_bounds h).2.1

/-- A point with digits, and perhaps an exponent; without digits before the point there are some behind it. -/
private def matchFraction (whole : Bool) : List Char → Option Nat
  | '.' :: cs =>
    if whole = false ∧ spanLength isDigit cs = 0 then none
    else some (1 + spanLength isDigit cs + (matchExponent (cs.drop (spanLength isDigit cs))).getD 0)
  | _ => none

private theorem matchPointed_eq (cs : List Char) :
    matchPointed cs = (matchFraction (spanLength isDigit cs != 0) (cs.drop (spanLength isDigit cs))).map
      (spanLength isDigit cs + ·) := by
  unfold matchPointed
  dsimp only
  generalize hd : cs.drop (spanLength isDigit cs) = behind
  generalize spanLength isDigit cs = d
  fun_cases matchFraction (d != 0) behind with
  | case1 cs hnone => exact if_pos (by simpa using hnone)
  | case2 cs hsome =>
    rw [Option.map_some, ← Nat.add_assoc, ← Nat.add_assoc]
    exact if_neg (by simpa using hsome)
  | case3 behind hno =>
    split
    · exact absurd rfl (hno _)
    · rfl

private theorem matchFraction_bounds {whole : Bool} {cs : List Char} {n : Nat}
    (h : matchFraction whole cs = some n) : 0 < n ∧ n ≤ cs.length := by
  unfold matchFraction at h
  split at h
  · rename_i cs'
    split at h
    · cases h
    · obtain rfl := Option.some.inj h
      have hspan := spanLength_le isDigit cs'
      have hexponent : (matchExponent (cs'.drop (spanLength isDigit cs'))).getD 0 ≤
          (cs'.drop (spanLength isDigit cs')).length := by
        cases hm : matchExponent (cs'.drop (spanLength isDigit cs')) with
        | none => exact Nat.zero_le _
        | some m => exact (matchExponent_bounds hm).2
      rw [List.length_drop] at hexponent
      rw [List.length_cons]
      omega
  · cases h

private theorem matchFraction_overruns (whole : Bool) (x y : List Char) : Overruns (matchFraction whole) x y := by
  cases x with
  | nil => exact overruns_of_none rfl fun n h => (matchFraction_bounds h).1
  | cons c x =>
    by_cases hc : c = '.'
    · subst hc
      have hlength : ('.' :: x).length = x.length + 1 := rfl
      unfold Overruns
      rw [List.cons_append, matchFraction, matchFraction]
      obtain heq | ⟨-, hlt⟩ := spanLength_overruns isDigit x y
      · obtain ⟨hdrop, hlength'⟩ := drop_append_of_eq heq
        rw [hdrop, heq]
        by_cases hnone : whole = false ∧ spanLength isDigit x = 0
        · exact Or.inl (by rw [if_pos hnone, if_pos hnone])
        · rw [if_neg hnone, if_neg hnone]
          obtain hexp | ⟨n, hn, hlt⟩ := matchExponent_overruns (x.drop (spanLength isDigit x)) y
          · exact Or.inl (by rw [hexp])
          · exact Or.inr ⟨_, rfl, by rw [hn, Option.getD_some]; omega⟩
      · exact Or.inr ⟨_, if_neg fun h => by omega, by omega⟩
    · have hnone : ∀ cs, matchFraction whole (c :: cs) = none := by
        intro cs
        unfold matchFraction
        split
        · rename_i heq
          cases heq
          exact absurd rfl hc
        · rfl
      exact Or.inl (by rw [List.cons_append, hnone, hnone])

private theorem matchPointed_bounds {cs : List Char} {n : Nat} (h : matchPointed cs = some n) :
    0 < n ∧ spanLength isDigit cs ≤ n ∧ n ≤ cs.length := by
  rw [matchPointed_eq] at h
  obtain ⟨m, hm, rfl⟩ := Option.map_eq_some_iff.1 h
  obtain ⟨hpos, hle⟩ := matchFraction_bounds hm
  have hspan := spanLength_le isDigit cs
  rw [List.length_drop] at hle
  omega

private theorem matchPointed_overruns (x y : List Char) : Overruns matchPointed x y := by
  obtain heq | ⟨hall, hlt⟩ := spanLength_overruns isDigit x y
  · obtain ⟨hdrop, hlength⟩ := drop_append_of_eq heq
    refine (matchFraction_overruns (spanLength isDigit x != 0) (x.drop (spanLength isDigit x)) y).shift _
      (matchPointed_eq x) ?_ hlength
    rw [matchPointed_eq, hdrop, heq]
  · -- the digits go on behind `x`, so `x` has no point
    have hnone : matchPointed x = none := by
      rw [matchPointed_eq, hall, List.drop_length]
      rfl
    exact overruns_of_none hnone fun n h => Nat.lt_of_lt_of_le hlt (matchPointed_bounds h).2.1

private theorem matchDouble_eq (cs : List Char) :
    matchDouble cs = ((matchWhole (splitSign cs).2).or (matchPointed (splitSign cs).2)).map ((splitSign cs).1 + ·) :=
  rfl

private theorem matchDouble_bounds {cs : List Char} {n : Nat} (h : matchDouble cs = some n) :
    0 < n ∧ n ≤ cs.length := by
  rw [matchDouble_eq] at h
  obtain ⟨m, hm, rfl⟩ := Option.map_eq_some_iff.1 h
  have hlength := splitSign_length cs
  have hbounds : 0 < m ∧ spanLength isDigit (splitSign cs).2 ≤ m ∧ m ≤ (splitSign cs).2.length := by
    obtain hm | ⟨-, hm⟩ := Option.or_eq_some_iff.1 hm
    · exact matchWhole_bounds hm
    · exact matchPointed_bounds hm
  omega

private theorem matchDouble_overruns {x : List Char} (hx : x ≠ []) (y : List Char) : Overruns matchDouble x y := by
  obtain ⟨c, x, rfl⟩ := List.exists_cons_of_ne_nil hx
  refine ((matchWhole_overruns (splitSign (c :: x)).2 y).or (matchPointed_overruns _ y)).shift _ (matchDouble_eq _) ?_
    (splitSign_length _).symm
  rw [matchDouble_eq, splitSign_cons_append]

/-! ### Names, words and marks -/

private theorem nameTail_overruns (x y : List Char) :
    nameTail (x ++ y) = nameTail x ∨ x.length < nameTail (x ++ y) := by
  induction x using nameTail.induct with
  | case1 =>
    rw [List.nil_append]
    exact (Nat.eq_zero_or_pos (nameTail y)).imp_left fun h => h
  | case2 d x hd ih =>
    rw [List.cons_append, List.cons_append, nameTail_dot, nameTail_dot, if_pos hd, if_pos hd]
    simp only [List.length_cons]
    omega
  | case3 d x hd =>
    rw [List.cons_append, List.cons_append, nameTail_dot, nameTail_dot, if_neg hd, if_neg hd]
    exact Or.inl rfl
  | case4 c x hne hc ih =>
    have hdot : c ≠ '.' := by
      rintro rfl
      exact absurd hc (by decide)
    rw [List.cons_append, nameTail_of_ne_dot hdot, nameTail_of_ne_dot hdot, if_pos hc, if_pos hc]
    simp only [List.length_cons]
    omega
  | case5 c x hne hc =>
    by_cases hdot : c = '.'
    · subst hdot
      cases x with
      | nil =>
        -- a dot at the end goes on with a name that begins behind it
        cases y with
        | nil => exact Or.inl rfl
        | cons d y =>
          rw [List.cons_append, List.nil_append, nameTail_dot]
          split
          · exact Or.inr (by simp)
          · exact Or.inl rfl
      | cons d x => exact absurd rfl (hne d x rfl)
    · rw [List.cons_append, nameTail_of_ne_dot hdot, nameTail_of_ne_dot hdot, if_neg hc, if_neg hc]
      exact Or.inl rfl

private theorem nameTail_le (cs : List Char) : nameTail cs ≤ cs.length := by
  induction cs using nameTail.induct with
  | case1 => exact Nat.le_refl _
  | case2 d cs hd ih =>
    rw [nameTail_dot, if_pos hd]
    exact Nat.add_le_add_right ih 2
  | case3 d cs hd =>
    rw [nameTail_dot, if_neg hd]
    exact Nat.zero_le _
  | case4 c cs hne hc ih =>
    have hdot : c ≠ '.' := by
      rintro rfl
      exact absurd hc (by decide)
    rw [nameTail_of_ne_dot hdot, if_pos hc]
    exact Nat.succ_le_succ ih
  | case5 c cs hne hc =>
    rw [nameTail, if_neg hc]
    · exact Nat.zero_le _
    · exact hne

private theorem matchIdentifier_bounds {cs : List Char} {n : Nat} (h : matchIdentifier cs = some n) :
    0 < n ∧ n ≤ cs.length := by
  cases cs with
  | nil => cases h
  | cons c cs =>
    rw [matchIdentifier] at h
    split at h
    · obtain rfl := Option.some.inj h
      exact ⟨Nat.zero_lt_succ _, Nat.succ_le_succ (nameTail_le cs)⟩
    · cases h

private theorem matchIdentifier_overruns {x : List Char} (hx : x ≠ []) (y : List Char) :
    Overruns matchIdentifier x y := by
  obtain ⟨c, x, rfl⟩ := List.exists_cons_of_ne_nil hx
  unfold Overruns
  rw [List.cons_append, matchIdentifier, matchIdentifier]
  split
  · obtain heq | hlt := nameTail_overruns x y
    · exact Or.inl (by rw [heq])
    · exact Or.inr ⟨_, rfl, by simpa using hlt⟩
  · exact Or.inl rfl

private theorem spelled_overruns (s : String) (x y : List Char) :
    Overruns (fun cs => if s.toList.isPrefixOf cs then some s.length else none) x y := by
  unfold Overruns
  by_cases hxy : s.toList <+: x ++ y
  · by_cases hx : s.toList <+: x
    · exact Or.inl (by simp [hx, hxy])
    · refine Or.inr ⟨s.length, by simp [hxy], Nat.lt_of_not_le fun hle => ?_⟩
      exact hx (List.prefix_of_prefix_length_le hxy (List.prefix_append x y) hle)
  · have hx : ¬ s.toList <+: x := fun hx => hxy (hx.trans (List.prefix_append x y))
    refine Or.inl ?_
    simp only [List.isPrefixOf_iff_prefix, if_neg hx, if_neg hxy]

/-- Terminals other than literals, comments, blanks and base types see no further than they reach. -/
theorem match?_overruns {t : Terminal} (ht : t ∉ [.lineComment, .literal, .blockComment, .blank, .baseType])
    {x : List Char} (hx : x ≠ []) (y : List Char) : Overruns t.match? x y := by
  cases t with
  | hexConstant => exact matchHex_overruns hx y
  | doubleConstant => exact matchDouble_overruns hx y
  | identifier => exact matchIdentifier_overruns hx y
  | intConstant => exact matchInt_overruns x y
  | lineComment | literal | blockComment | blank | baseType => simp at ht
  | stop => exact Or.inl rfl
  | _ => exact spelled_overruns _ x y

/-! ### Base types -/

private theorem matchBaseType_eq_some {cs : List Char} {n : Nat} (h : matchBaseType cs = some n) :
    ∃ name ∈ baseTypeNames, ∃ behind, cs = name.toList ++ behind ∧ endsBaseType behind = true ∧ n = name.length := by
  obtain ⟨name, hfind, rfl⟩ := Option.map_eq_some_iff.1 h
  have hname := List.find?_some hfind
  rw [Bool.and_eq_true] at hname
  obtain ⟨behind, rfl⟩ := List.isPrefixOf_iff_prefix.1 hname.1
  have hdrop : (name.toList ++ behind).drop name.length = behind := List.drop_left
  refine ⟨name, List.mem_of_find?_eq_some hfind, behind, rfl, ?_, rfl⟩
  have hends := hname.2
  rw [hdrop] at hends
  exact hends

private theorem matchBaseType_bounds {cs : List Char} {n : Nat} (h : matchBaseType cs = some n) :
    0 < n ∧ n ≤ cs.length := by
  obtain ⟨name, hname, behind, rfl, -, rfl⟩ := matchBaseType_eq_some h
  have hpos : ∀ name ∈ baseTypeNames, 0 < name.length := by decide
  exact ⟨hpos name hname, (List.prefix_append _ _).length_le⟩

/-- No name of a base type begins with another one. -/
private theorem baseTypeNames_apart : ∀ a ∈ baseTypeNames, ∀ b ∈ baseTypeNames, a.toList <+: b.toList → a = b := by
  decide

theorem matchBaseType_append_of_ends {name : String} (hname : name ∈ baseTypeNames) {behind : List Char}
    (hends : endsBaseType behind = true) : matchBaseType (name.toList ++ behind) = some name.length := by
  cases h : matchBaseType (name.toList ++ behind) with
  | none =>
    rw [Idl.matchBaseType, Option.map_eq_none_iff, List.find?_eq_none] at h
    refine absurd ?_ (h name hname)
    have hdrop : (name.toList ++ behind).drop name.length = behind := List.drop_left
    rw [Bool.and_eq_true, hdrop]
    exact ⟨List.isPrefixOf_iff_prefix.2 (List.prefix_append _ _), hends⟩
  | some n =>
    obtain ⟨other, hother, behind', heq, -, rfl⟩ := matchBaseType_eq_some h
    have hfront : name.toList <+: name.toList ++ behind := List.prefix_append _ _
    have hfront' : other.toList <+: name.toList ++ behind := by
      rw [heq]
      exact List.prefix_append _ _
    obtain hle | hle := Nat.le_total name.toList.length other.toList.length
    · rw [baseTypeNames_apart name hname other hother (List.prefix_of_prefix_length_le hfront hfront' hle)]
    · rw [baseTypeNames_apart other hother name hname (List.prefix_of_prefix_length_le hfront' hfront hle)]

private theorem endsBaseType_append {x y : List Char} (hx : x ≠ []) : endsBaseType (x ++ y) = endsBaseType x := by
  obtain ⟨c, x, rfl⟩ := List.exists_cons_of_ne_nil hx
  rfl

/-- A base type is seen within the front of a text, or goes beyond it, unless the front is its name and what comes
behind does not end it. -/
theorem matchBaseType_overruns (x y : List Char) :
    Overruns matchBaseType x y ∨ matchBaseType (x ++ y) = none ∧ ∃ name ∈ baseTypeNames, x = name.toList := by
  cases hxy : matchBaseType (x ++ y) with
  | some n =>
    obtain ⟨name, hname, behind, heq, hends, rfl⟩ := matchBaseType_eq_some hxy
    refine Or.inl ?_
    obtain hlt | hle := Nat.lt_or_ge x.length name.toList.length
    · exact Or.inr ⟨_, hxy, hlt⟩
    · obtain ⟨x', rfl⟩ := List.prefix_of_prefix_length_le (heq ▸ List.prefix_append _ _) (List.prefix_append x y) hle
      refine Or.inl (hxy.trans (matchBaseType_append_of_ends hname ?_).symm)
      cases x' with
      | nil => rfl
      | cons c x' =>
        rw [List.append_assoc, List.append_cancel_left_eq] at heq
        rwa [← heq, endsBaseType_append (by simp)] at hends
  | none =>
    cases hx : matchBaseType x with
    | none => exact Or.inl (Or.inl (hxy.trans hx.symm))
    | some n =>
      obtain ⟨name, hname, behind, rfl, hends, rfl⟩ := matchBaseType_eq_some hx
      cases behind with
      | nil => exact Or.inr ⟨rfl, name, hname, List.append_nil _⟩
      | cons c behind =>
        have hno : endsBaseType ((c :: behind) ++ y) ≠ true := by
          intro hyes
          rw [List.append_assoc, matchBaseType_append_of_ends hname hyes] at hxy
          cases hxy
        exact absurd hends (by rwa [endsBaseType_append (by simp)] at hno)

/-! ### Literals, comments and blanks -/

theorem toCommentEnd_cons (c : Char) (cs : List Char) :
    toCommentEnd (c :: cs) =
      if c = '*' ∧ cs.head? = some '/' then some 2 else (toCommentEnd cs).map (· + 1) := by
  by_cases h : c = '*' ∧ cs.head? = some '/'
  · obtain ⟨rfl, hhead⟩ := h
    obtain ⟨cs, rfl⟩ := List.head?_eq_some_iff.1 hhead
    rfl
  · rw [if_neg h, toCommentEnd]
    rintro cs' rfl rfl
    exact h ⟨rfl, rfl⟩

private theorem toCommentEnd_bounds {cs : List Char} {n : Nat} (h : toCommentEnd cs = some n) :
    0 < n ∧ n ≤ cs.length := by
  induction cs generalizing n with
  | nil => cases h
  | cons c cs ih =>
    rw [toCommentEnd_cons] at h
    split at h
    · rename_i hend
      obtain ⟨cs, rfl⟩ := List.head?_eq_some_iff.1 hend.2
      obtain rfl := Option.some.inj h
      simp only [List.length_cons]
      omega
    · obtain ⟨m, hm, rfl⟩ := Option.map_eq_some_iff.1 h
      exact ⟨Nat.zero_lt_succ m, Nat.succ_le_succ (ih hm).2⟩

private theorem toCommentEnd_append {x y : List Char} {n : Nat} (h : toCommentEnd (x ++ y) = some n)
    (hn : n ≤ x.length) (z : List Char) : toCommentEnd (x ++ z) = some n := by
  induction x generalizing n with
  | nil => exact absurd (toCommentEnd_bounds h).1 (by simpa using hn)
  | cons c x ih =>
    have hhead : ∀ {m : Nat}, 0 < m → m ≤ x.length → (x ++ z).head? = (x ++ y).head? := by
      intro m hm hle
      obtain ⟨d, x, rfl⟩ := List.exists_cons_of_length_pos (Nat.lt_of_lt_of_le hm hle)
      rfl
    rw [List.cons_append, toCommentEnd_cons] at h ⊢
    rw [List.length_cons] at hn
    split at h
    · rename_i hend
      obtain rfl := Option.some.inj h
      rw [hhead Nat.zero_lt_one (by omega), if_pos hend]
    · rename_i hend
      obtain ⟨m, hm, rfl⟩ := Option.map_eq_some_iff.1 h
      rw [hhead (toCommentEnd_bounds hm).1 (by omega), if_neg hend, ih hm (by omega)]
      rfl

private theorem matchQuoted_append_of_le {q : Char} {x y : List Char} {n : Nat} (h : matchQuoted q (x ++ y) = some n)
    (hn : n ≤ x.length + 1) (z : List Char) : matchQuoted q (x ++ z) = some n := by
  unfold matchQuoted at h ⊢
  dsimp only at h ⊢
  split at h
  · cases h
  · obtain rfl := Option.some.inj h
    have hlt : spanLength (· ≠ q) (x ++ y) < x.length := by omega
    rw [spanLength_append_of_lt hlt z, if_neg]
    rw [List.isEmpty_iff, List.drop_eq_nil_iff, List.length_append]
    omega

private theorem matchLineComment_bounds {cs : List Char} {n : Nat} (h : matchLineComment cs = some n) :
    0 < n ∧ n ≤ cs.length := by
  unfold matchLineComment at h
  split at h
  · rename_i cs'
    obtain rfl := Option.some.inj h
    have hspan := spanLength_le (· ≠ '\n') cs'
    simp only [List.length_cons]
    omega
  · rename_i cs'
    obtain rfl := Option.some.inj h
    have hspan := spanLength_le (· ≠ '\n') cs'
    simp only [List.length_cons]
    omega
  · cases h

private theorem matchLineComment_append {x y : List Char} {n : Nat} (h : matchLineComment (x ++ y) = some n)
    (hn : n < x.length) (z : List Char) : matchLineComment (x ++ z) = some n := by
  match x with
  | [] => simp at hn
  | [c] =>
    have hpos := (matchLineComment_bounds h).1
    rw [List.length_singleton] at hn
    omega
  | c :: d :: x =>
    rw [List.cons_append, List.cons_append] at h ⊢
    simp only [List.length_cons] at hn
    unfold matchLineComment at h
    split at h
    · rename_i heq
      cases heq
      obtain rfl := Option.some.inj h
      exact congrArg (fun n => some (2 + n)) (spanLength_append_of_lt (by omega) z)
    · rename_i heq
      cases heq
      obtain rfl := Option.some.inj h
      have hlt : spanLength (· ≠ '\n') ((d :: x) ++ y) < (d :: x).length := by
        simp only [List.cons_append, List.length_cons]
        omega
      exact congrArg (fun n => some (1 + n)) (spanLength_append_of_lt hlt z)
    · cases h

private theorem matchBlockComment_bounds {cs : List Char} {n : Nat} (h : matchBlockComment cs = some n) :
    2 < n ∧ n ≤ cs.length := by
  unfold matchBlockComment at h
  split at h
  · obtain ⟨m, hm, rfl⟩ := Option.map_eq_some_iff.1 h
    have hbounds := toCommentEnd_bounds hm
    simp only [List.length_cons]
    omega
  · cases h

private theorem matchBlockComment_append {x y : List Char} {n : Nat} (h : matchBlockComment (x ++ y) = some n)
    (hn : n < x.length) (z : List Char) : matchBlockComment (x ++ z) = some n := by
  have hlong := (matchBlockComment_bounds h).1
  match x with
  | [] | [_] =>
    simp only [List.length_nil, List.length_cons] at hn
    omega
  | c :: d :: x =>
    rw [List.cons_append, List.cons_append] at h ⊢
    unfold matchBlockComment at h
    split at h
    · rename_i heq
      cases heq
      obtain ⟨m, hm, rfl⟩ := Option.map_eq_some_iff.1 h
      simp only [List.length_cons] at hn
      exact congrArg (Option.map (· + 2)) (toCommentEnd_append hm (by omega) z)
    · cases h

private theorem matchQuoted_bounds {q : Char} {cs : List Char} {n : Nat} (h : matchQuoted q cs = some n) :
    0 < n ∧ n ≤ cs.length + 1 := by
  unfold matchQuoted at h
  dsimp only at h
  split at h
  · cases h
  · rename_i hne
    obtain rfl := Option.some.inj h
    rw [List.isEmpty_iff, List.drop_eq_nil_iff] at hne
    omega

private theorem matchLiteral_bounds {cs : List Char} {n : Nat} (h : matchLiteral cs = some n) :
    0 < n ∧ n ≤ cs.length := by
  unfold matchLiteral at h
  split at h
  · exact matchQuoted_bounds h
  · exact matchQuoted_bounds h
  · cases h

private theorem matchLiteral_append {x y : List Char} {n : Nat} (h : matchLiteral (x ++ y) = some n)
    (hn : n ≤ x.length) (z : List Char) : matchLiteral (x ++ z) = some n := by
  cases x with
  | nil => exact absurd (matchLiteral_bounds h).1 (by simpa using hn)
  | cons c x =>
    rw [List.length_cons] at hn
    rw [List.cons_append] at h ⊢
    unfold matchLiteral at h
    split at h
    · rename_i heq
      cases heq
      exact matchQuoted_append_of_le h hn z
    · rename_i heq
      cases heq
      exact matchQuoted_append_of_le h hn z
    · cases h

private theorem matchBlank_bounds {cs : List Char} {n : Nat} (h : matchBlank cs = some n) :
    0 < n ∧ n ≤ cs.length := by
  unfold matchBlank at h
  dsimp only at h
  split at h
  · cases h
  · rename_i hne
    obtain rfl := Option.some.inj h
    exact ⟨Nat.pos_of_ne_zero hne, spanLength_le _ _⟩

private theorem matchBlank_append {x y : List Char} {n : Nat} (h : matchBlank (x ++ y) = some n) (hn : n < x.length)
    (z : List Char) : matchBlank (x ++ z) = some n := by
  unfold matchBlank at h ⊢
  dsimp only at h ⊢
  split at h
  · cases h
  · rename_i hne
    obtain rfl := Option.some.inj h
    rw [spanLength_append_of_lt hn z, if_neg hne]

/-- A literal, comment or blank that ends within the front of a text ends there whatever comes behind; a comment up to
the end of its line and blanks end where something else begins. -/
theorem match?_append_of_lt {k : Terminal} (hk : k ∈ [.lineComment, .literal, .blockComment, .blank])
    {x y : List Char} {n : Nat} (h : k.match? (x ++ y) = some n) (hn : n ≤ x.length)
    (hlt : k.isIgnored = true → n < x.length) (z : List Char) : k.match? (x ++ z) = some n := by
  simp only [List.mem_cons, List.not_mem_nil, or_false] at hk
  rcases hk with rfl | rfl | rfl | rfl
  · exact matchLineComment_append h (hlt rfl) z
  · exact matchLiteral_append h hn z
  · exact matchBlockComment_append h (hlt rfl) z
  · exact matchBlank_append h (hlt rfl) z

/-! ### Cuts -/

/-- A terminal that matches takes at least one character, and no more than there are. -/
theorem match?_bounds {t : Terminal} {cs : List Char} {n : Nat} (h : t.match? cs = some n) :
    0 < n ∧ n ≤ cs.length := by
  have hspelled : ∀ {s : String}, t.spelling? = some s → 0 < n ∧ n ≤ cs.length := by
    intro s hs
    have hpos : ∀ t : Terminal, ∀ s ∈ t.spelling?, 0 < s.length := by
      intro t
      cases t <;> decide
    rw [match?_spelled hs] at h
    split at h
    · rename_i hfront
      obtain rfl := Option.some.inj h
      exact ⟨hpos t s hs, (List.isPrefixOf_iff_prefix.1 hfront).length_le⟩
    · cases h
  cases t with
  | hexConstant => exact matchHex_bounds h
  | doubleConstant => exact matchDouble_bounds h
  | baseType => exact matchBaseType_bounds h
  | identifier => exact matchIdentifier_bounds h
  | lineComment => exact matchLineComment_bounds h
  | literal => exact matchLiteral_bounds h
  | blockComment => exact (matchBlockComment_bounds h).imp_left Nat.zero_lt_of_lt
  | blank => exact matchBlank_bounds h
  | intConstant => exact matchInt_bounds h
  | stop => cases h
  | _ => exact hspelled rfl

/-- What a terminal that matches begins with. -/
theorem opensWith_of_match? {t : Terminal} {c : Char} {cs : List Char} {n : Nat} (h : t.match? (c :: cs) = some n) :
    t.opensWith c = true := by
  cases hc : t.opensWith c with
  | true => rfl
  | false =>
    rw [match?_eq_none hc] at h
    cases h

/-- Nothing else begins with what literals, comments and blanks begin with, except that both kinds of comments begin
with a slash. -/
private theorem opensWith_inj {t : Terminal} (ht : t ∈ [.lineComment, .literal, .blockComment, .blank]) {c : Char}
    (htc : t.opensWith c = true) {k : Terminal} (hkc : k.opensWith c = true) :
    k = t ∨ c = '/' ∧ ((k = .lineComment ∧ t = .blockComment) ∨ (k = .blockComment ∧ t = .lineComment)) := by
  have hall : ∀ t ∈ [Terminal.lineComment, .literal, .blockComment, .blank], ∀ k ∈ Terminal.all ++ [Terminal.stop],
      (gapMarks ++ ['"', '\'']).all (fun c => t.opensWith c = true → k.opensWith c = true →
        k = t ∨ c = '/' ∧
          ((k = .lineComment ∧ t = .blockComment) ∨ (k = .blockComment ∧ t = .lineComment))) = true := by
    decide
  refine of_decide_eq_true (List.all_eq_true.1 (hall t ht k (mem_terminals k)) c ?_) htc hkc
  simp only [List.mem_cons, List.not_mem_nil, or_false] at ht
  rcases ht with rfl | rfl | rfl | rfl <;> grind [Terminal.opensWith, isBlank, gapMarks]

private theorem eq_of_matchLineComment {d : Char} {cs : List Char} {n : Nat}
    (h : matchLineComment ('/' :: d :: cs) = some n) : d = '/' := by
  unfold matchLineComment at h
  split at h
  · rename_i heq
    cases heq
    rfl
  · rename_i heq
    cases heq
  · cases h

private theorem eq_of_matchBlockComment {d : Char} {cs : List Char} {n : Nat}
    (h : matchBlockComment ('/' :: d :: cs) = some n) : d = '*' := by
  unfold matchBlockComment at h
  split at h
  · rename_i heq
    cases heq
    rfl
  · cases h

/-- Where a token has been cut within the front of a text, a literal, comment or blank that cannot stand there cannot
stand there whatever comes behind. -/
private theorem match?_append_eq_none {t k : Terminal} (ht : t ∈ [.lineComment, .literal, .blockComment, .blank])
    {x y : List Char} {n : Nat} (hk : k.match? (x ++ y) = some n) (hn : n ≤ x.length)
    (hlt : k.isIgnored = true → n < x.length) (hnone : t.match? (x ++ y) = none) (z : List Char) :
    t.match? (x ++ z) = none := by
  have hpos := (match?_bounds hk).1
  cases x with
  | nil => exact absurd hpos (by simpa using hn)
  | cons c x =>
    cases htc : t.opensWith c with
    | false => exact match?_eq_none htc (x ++ z)
    | true =>
      obtain rfl | ⟨rfl, hcomments⟩ := opensWith_inj ht htc (opensWith_of_match? hk)
      · rw [hk] at hnone
        cases hnone
      · -- a comment of the other kind has its own second character within the front
        have hignored : k.isIgnored = true := by
          obtain ⟨rfl, -⟩ | ⟨rfl, -⟩ := hcomments <;> rfl
        have hlong := hlt hignored
        cases x with
        | nil =>
          rw [List.length_singleton] at hlong
          omega
        | cons d x =>
          obtain ⟨rfl, rfl⟩ | ⟨rfl, rfl⟩ := hcomments
          · obtain rfl := eq_of_matchLineComment hk
            rfl
          · obtain rfl := eq_of_matchBlockComment hk
            rfl

theorem firstMatch_eq_some {ts : List Terminal} {cs : List Char} {k : Terminal} {n : Nat} :
    firstMatch ts cs = some (k, n) ↔
      ∃ before behind, ts = before ++ k :: behind ∧ k.match? cs = some n ∧ ∀ t ∈ before, t.match? cs = none := by
  unfold firstMatch
  rw [List.findSome?_eq_some_iff]
  constructor
  · rintro ⟨before, t, behind, hts, hmatch, hbefore⟩
    obtain ⟨m, hm, heq⟩ := Option.map_eq_some_iff.1 hmatch
    cases heq
    exact ⟨before, behind, hts, hm, fun t ht => Option.map_eq_none_iff.1 (hbefore t ht)⟩
  · rintro ⟨before, behind, hts, hmatch, hbefore⟩
    exact ⟨before, k, behind, hts, by rw [hmatch]; rfl, fun t ht => by rw [hbefore t ht]; rfl⟩

private theorem notMem_concat {ks : List Terminal} {k t : Terminal} (hks : k ∉ ks) (ht : k ≠ t) : k ∉ ks ++ [t] := by
  simp [hks, ht]

/-- Only an identifier has all of a base type's name at its front. -/
private theorem match?_baseTypeName : ∀ name ∈ baseTypeNames, ∀ k ∈ Terminal.all ++ [Terminal.stop],
    k ∉ [Terminal.baseType, .identifier] → k.match? name.toList = none := by
  decide

private theorem matchIdentifier_baseTypeName : ∀ name ∈ baseTypeNames,
    matchIdentifier name.toList = some name.toList.length := by
  decide

/-- What matches within the name of a base type, other than a base type, is an identifier and matches all of it. -/
private theorem eq_identifier_of_match? {name : String} (hname : name ∈ baseTypeNames) {y : List Char} {k : Terminal}
    {n : Nat} (hk : k ≠ .baseType) (hmatch : k.match? (name.toList ++ y) = some n) (hn : n ≤ name.toList.length)
    (hlt : k.isIgnored = true → n < name.toList.length) : k = .identifier ∧ n = name.toList.length := by
  have hne : name.toList ≠ [] := by
    intro hnil
    rw [hnil] at hn
    exact absurd (match?_bounds hmatch).1 (Nat.not_lt.2 hn)
  have hsome : k.match? name.toList = some n := by
    by_cases hspecial : k ∈ [Terminal.lineComment, .literal, .blockComment, .blank]
    · simpa using match?_append_of_lt hspecial hmatch hn hlt []
    · exact (match?_overruns (notMem_concat hspecial hk) hne y).eq_some hmatch hn
  have hidentifier : k = .identifier := by
    by_cases hidentifier : k = .identifier
    · exact hidentifier
    · rw [match?_baseTypeName name hname k (mem_terminals k) (by simp [hk, hidentifier])] at hsome
      cases hsome
  subst hidentifier
  rw [Terminal.match?, matchIdentifier_baseTypeName name hname, Option.some.injEq] at hsome
  exact ⟨rfl, hsome.symm⟩

/-- A token within the front of a text is found whatever comes behind a blank or comment; a base type's name is an
identifier only where no base type is looked for. -/
private theorem firstMatch_append {ts : List Terminal} {x y z : List Char} {k : Terminal} {n : Nat}
    (h : firstMatch ts (x ++ y) = some (k, n)) (hn : n ≤ x.length) (hlt : k.isIgnored = true → n < x.length)
    (hbase : k = .identifier → n = x.length → .baseType ∈ ts → ∀ name ∈ baseTypeNames, x ≠ name.toList)
    (hz : AtGap z) : firstMatch ts (x ++ z) = some (k, n) := by
  obtain ⟨before, behind, hts, hmatch, hbefore⟩ := firstMatch_eq_some.1 h
  have hx : x ≠ [] := by
    rintro rfl
    exact absurd (match?_bounds hmatch).1 (by simpa using hn)
  refine firstMatch_eq_some.2 ⟨before, behind, hts, ?_, fun t ht => ?_⟩
  · by_cases hspecial : k ∈ [Terminal.lineComment, .literal, .blockComment, .blank]
    · exact match?_append_of_lt hspecial hmatch hn hlt z
    · rw [match?_append hz hspecial]
      by_cases hk : k = .baseType
      · subst hk
        obtain hover | ⟨hnone, -⟩ := matchBaseType_overruns x y
        · exact hover.eq_some hmatch hn
        · rw [Terminal.match?, hnone] at hmatch
          cases hmatch
      · exact (match?_overruns (notMem_concat hspecial hk) hx y).eq_some hmatch hn
  · by_cases hspecial : t ∈ [Terminal.lineComment, .literal, .blockComment, .blank]
    · exact match?_append_eq_none hspecial hmatch hn hlt (hbefore t ht) z
    · rw [match?_append hz hspecial]
      by_cases hbaseType : t = .baseType
      · subst hbaseType
        obtain hover | ⟨hnone, name, hname, rfl⟩ := matchBaseType_overruns x y
        · exact hover.eq_none (hbefore _ ht)
        · -- the front is the name of a base type, so the token is an identifier that is all of it
          have hk : k ≠ .baseType := by
            rintro rfl
            rw [hbefore _ ht] at hmatch
            cases hmatch
          obtain ⟨rfl, hall⟩ := eq_identifier_of_match? hname hk hmatch hn hlt
          exact absurd rfl (hbase rfl hall (hts ▸ List.mem_append_left _ ht) name hname)
      · exact (match?_overruns (notMem_concat hspecial hbaseType) hx y).eq_none (hbefore t ht)

/-- What an identifier turns out to be, other terminals staying as they are. -/
def Mode.wordOr (m : Mode) (k : Terminal) (text : List Char) : Terminal :=
  if k = .identifier then (m.words.find? fun w => w.spelling? = some (String.ofList text)).getD .identifier else k

private theorem cut_eq (m : Mode) (cs : List Char) :
    m.cut cs = (firstMatch m.tried cs).map fun r => (m.wordOr r.1 (cs.take r.2), r.2) := by
  unfold Mode.cut
  split
  · rename_i n heq
    rw [heq]
    rfl
  · rename_i hno
    cases hfirst : firstMatch m.tried cs with
    | none => rfl
    | some r =>
      have hne : r.1 ≠ .identifier := by
        rintro heq
        exact hno r.2 (by rw [hfirst, ← heq])
      simp [Mode.wordOr, hne]

theorem cut_eq_some {m : Mode} {cs : List Char} {k : Terminal} {n : Nat} :
    m.cut cs = some (k, n) ↔ ∃ l, firstMatch m.tried cs = some (l, n) ∧ m.wordOr l (cs.take n) = k := by
  rw [cut_eq, Option.map_eq_some_iff]
  constructor
  · rintro ⟨⟨l, n'⟩, hfirst, heq⟩
    obtain ⟨hk, rfl⟩ := Prod.mk.inj heq
    exact ⟨l, hfirst, hk⟩
  · rintro ⟨l, hfirst, rfl⟩
    exact ⟨(l, n), hfirst, rfl⟩

/-- A token within the front of a text is cut in the same way whatever comes behind a blank or comment; a base type's
name is an identifier only where no base type is looked for. -/
theorem cut_append {m : Mode} {x y z : List Char} {k : Terminal} {n : Nat} (h : m.cut (x ++ y) = some (k, n))
    (hn : n ≤ x.length) (hlt : k.isIgnored = true → n < x.length)
    (hbase : k = .identifier → n = x.length → .baseType ∈ m.tried → ∀ name ∈ baseTypeNames, x ≠ name.toList)
    (hz : AtGap z) : m.cut (x ++ z) = some (k, n) := by
  obtain ⟨l, hfirst, hk⟩ := cut_eq_some.1 h
  rw [List.take_append_of_le_length hn] at hk
  refine cut_eq_some.2 ⟨l, firstMatch_append hfirst hn ?_ ?_ hz, by rwa [List.take_append_of_le_length hn]⟩
  · intro hignored
    have hne : l ≠ .identifier := by
      rintro rfl
      cases hignored
    rw [Mode.wordOr, if_neg hne] at hk
    exact hlt (hk ▸ hignored)
  · rintro rfl hall htried name hname rfl
    -- no word is spelled like a base type
    have hspelling : ∀ name ∈ baseTypeNames, ∀ t : Terminal, t.spelling? ≠ some name := by
      intro name hname t
      revert name
      cases t <;> decide
    have hfind : m.words.find? (fun w => w.spelling? = some (String.ofList (name.toList.take n))) = none := by
      rw [hall, List.take_length, String.ofList_toList, List.find?_eq_none]
      intro w _
      simpa using hspelling name hname w
    rw [Mode.wordOr, if_pos rfl, hfind] at hk
    exact hbase hk.symm hall htried name hname rfl

end ThriftGateway.Idl
