import Mathlib.Data.List.DropRight
import ThriftGateway.Proofs.Number.Reading

/-!
# Which texts are integers

A numeral is a sign, which may be left out, and a run of digits of any script, with at most one underscore between two
of them.  A text stands for an integer exactly if what is between its white space is a numeral of this integer that is
not too long (`readInt?_trim_eq_some`).
-/

namespace ThriftGateway.Number

open Text (digitValue? isWhite trim trimBy)

/-! ### Numerals -/

/-- Characters with digits for their values, and perhaps an underscore between two of them. -/
inductive IsRun (value? : Char → Option Nat) : List Char → List Nat → Prop
  | last {c d} (hc : value? c = some d) : IsRun value? [c] [d]
  | next {c d cs ds} (hc : value? c = some d) (hs : IsRun value? cs ds) : IsRun value? (c :: cs) (d :: ds)
  | apart {c d cs ds} (hc : value? c = some d) (hs : IsRun value? cs ds) : IsRun value? (c :: '_' :: cs) (d :: ds)

/-- A sign, which may be left out, and whether it makes what follows negative. -/
inductive IsSign : List Char → Bool → Prop
  | none : IsSign [] false
  | plus : IsSign ['+'] false
  | minus : IsSign ['-'] true

/-- The integer with a magnitude. -/
def signed (negative : Bool) (magnitude : Nat) : Int := if negative then -magnitude else magnitude

/-- A numeral with its integer: a sign and digits of any script, not too many. -/
inductive Denotes : List Char → Int → Prop
  | intro {sign run ds negative} (hsign : IsSign sign negative) (hrun : IsRun digitValue? run ds)
      (hlimit : ds.length ≤ digitLimit) : Denotes (sign ++ run) (signed negative (ofDigits 10 ds))

/-! ### Characters in ASCII -/

/-- What holds of all white space holds of each. -/
private theorem forall_of_isWhite {P : Char → Prop}
    (h : ∀ n ∈ List.range' 9 5 ++ List.range' 28 5 ++ List.range' 0x2000 11 ++
      [0x85, 0xA0, 0x1680, 0x2028, 0x2029, 0x202F, 0x205F, 0x3000], P (Char.ofNat n))
    {c : Char} (hc : isWhite c = true) : P c := by
  rw [← Char.ofNat_toNat c]
  refine h _ ?_
  simp only [isWhite, Bool.or_eq_true, Bool.and_eq_true, decide_eq_true_eq] at hc
  simp only [List.mem_append, List.mem_range'_1, List.mem_cons, List.not_mem_nil, or_false]
  omega

private theorem digitValue?_of_isWhite {c : Char} (hc : isWhite c = true) : digitValue? c = none := by
  refine forall_of_isWhite (P := fun c => digitValue? c = none) ?_ hc
  decide +kernel

private theorem digitValue?_lt {c : Char} {d : Nat} (h : digitValue? c = some d) : d < 10 := by
  unfold digitValue? at h
  obtain ⟨z, hz, rfl⟩ := Option.map_eq_some_iff.1 h
  have hbounds := Array.find?_some hz
  rw [Bool.and_eq_true, decide_eq_true_eq, decide_eq_true_eq] at hbounds
  omega

private theorem digitIn?_ten (c : Char) : digitIn? 10 c = digitValue? c := by
  rw [digitIn?, if_neg (by decide), Option.or_none]

/-- A character in ASCII is a digit if the character was one, with the same value. -/
private theorem digitIn?_inAscii (c : Char) : digitIn? 10 (inAscii c) = digitValue? c := by
  rw [digitIn?_ten]
  unfold inAscii
  by_cases hplain : c.toNat < 127
  · rw [if_pos hplain]
  · rw [if_neg hplain]
    by_cases hwhite : isWhite c = true
    · rw [if_pos hwhite, digitValue?_of_isWhite hwhite]
      decide
    · rw [if_neg hwhite]
      cases hd : digitValue? c with
      | none =>
        show digitValue? '?' = none
        decide
      | some d =>
        have hdigits : ∀ d < 10, digitValue? (Char.ofNat (48 + d)) = some d := by decide
        exact hdigits d (digitValue?_lt hd)

/-- No other character becomes an underscore or a sign. -/
private theorem inAscii_eq_iff {c x : Char} (hx : x ∈ ['_', '+', '-']) : inAscii c = x ↔ c = x := by
  have hplain : ∀ x ∈ ['_', '+', '-'], inAscii x = x := by
    rw [List.forall_mem_cons, List.forall_mem_cons, List.forall_mem_singleton]
    decide
  refine ⟨fun h => ?_, fun h => h ▸ hplain x hx⟩
  unfold inAscii at h
  split at h
  · exact h
  · exfalso
    split at h
    · subst h
      exact absurd hx (by decide)
    · cases hd : digitValue? c with
      | none =>
        rw [hd] at h
        subst h
        exact absurd hx (by decide)
      | some d =>
        have hdigits : ∀ d < 10, Char.ofNat (48 + d) ∉ ['_', '+', '-'] := by decide
        rw [hd] at h
        subst h
        exact hdigits d (digitValue?_lt hd) hx

/-- A character that is no white space does not become a space. -/
private theorem isWhite_of_isSpace_inAscii {c : Char} (h : isSpace (inAscii c) = true) : isWhite c = true := by
  unfold inAscii at h
  split at h
  · have hspace : c = ' ' ∨ 9 ≤ c.toNat ∧ c.toNat ≤ 13 := by
      simpa [isSpace, Char.le_def, UInt32.le_iff_toNat_le] using h
    rcases hspace with rfl | hspace
    · decide
    · simp [isWhite, hspace.1, hspace.2]
  · split at h
    · assumption
    · cases hd : digitValue? c with
      | none =>
        rw [hd] at h
        exact absurd h (by decide)
      | some d =>
        have hdigits : ∀ d < 10, isSpace (Char.ofNat (48 + d)) = false := by decide
        rw [hd] at h
        exact absurd h (by simp [hdigits d (digitValue?_lt hd)])

/-! ### Ends of a text -/

/-- Nothing more is left out of a trimmed text. -/
private theorem trimBy_trimBy {p q : Char → Bool} (hpq : ∀ c, p c = true → q c = true) (cs : List Char) :
    trimBy p (trimBy q cs) = trimBy q cs := by
  have hfront : (trimBy q cs).dropWhile p = trimBy q cs := by
    rw [List.dropWhile_eq_self_iff]
    intro hne hc
    -- it begins as the text does without the characters at the front
    have hbegins : trimBy q cs <+: cs.dropWhile q := List.rdropWhile_prefix q _
    have hne' : 0 < (cs.dropWhile q).length := hne.trans_le hbegins.length_le
    rw [hbegins.getElem hne] at hc
    exact List.dropWhile_get_zero_not q cs hne' (hpq _ hc)
  have hback : (trimBy q cs).rdropWhile p = trimBy q cs := by
    rw [List.rdropWhile_eq_self_iff]
    intro hne hc
    exact List.rdropWhile_last_not q (cs.dropWhile q) hne (hpq _ hc)
  show ((trimBy q cs).dropWhile p).rdropWhile p = _
  rw [hfront, hback]

private theorem trimBy_map (p : Char → Bool) (f : Char → Char) (cs : List Char) :
    trimBy p (cs.map f) = (trimBy (p ∘ f) cs).map f := by
  unfold trimBy
  rw [List.dropWhile_map, ← List.map_reverse, List.dropWhile_map, List.map_reverse]

/-- What is between the white space of a text has no spaces at its ends, nor when it is put in ASCII. -/
private theorem bareNumeral_trim (cs : List Char) : bareNumeral (String.ofList (trim cs)) = (trim cs).map inAscii := by
  rw [bareNumeral, String.toList_ofList, trimBy_map]
  exact congrArg _ (trimBy_trimBy (p := isSpace ∘ inAscii) (fun _ hc => isWhite_of_isSpace_inAscii hc) cs)

/-! ### Runs -/

variable {value? : Char → Option Nat} {cs : List Char} {ds : List Nat}

/-- A run begins with a digit. -/
private theorem IsRun.exists_cons (h : IsRun value? cs ds) : ∃ c cs', cs = c :: cs' ∧ (value? c).isSome = true := by
  cases h with
  | last hc | next hc | apart hc => exact ⟨_, _, rfl, by rw [hc]; rfl⟩

private theorem IsRun.forall (h : IsRun value? cs ds) : ∀ c ∈ cs, c = '_' ∨ (value? c).isSome = true := by
  induction h with
  | last hc => simp [hc]
  | next hc _ ih => simpa [hc] using ih
  | apart hc _ ih => simpa [hc] using ih

/-- A run is one when it is put in ASCII, and is none if it was none. -/
private theorem isRun_map_inAscii : IsRun (digitIn? 10) (cs.map inAscii) ds ↔ IsRun digitValue? cs ds := by
  constructor
  · intro h
    generalize hmap : cs.map inAscii = cs' at h
    induction h generalizing cs with
    | last hc =>
      obtain ⟨c, rfl, rfl⟩ := List.map_eq_singleton_iff.1 hmap
      exact .last (by rwa [digitIn?_inAscii] at hc)
    | next hc _ ih =>
      obtain ⟨c, cs, rfl, rfl, rfl⟩ := List.map_eq_cons_iff.1 hmap
      exact .next (by rwa [digitIn?_inAscii] at hc) (ih rfl)
    | apart hc _ ih =>
      obtain ⟨c, tail, rfl, rfl, htail⟩ := List.map_eq_cons_iff.1 hmap
      obtain ⟨u, cs, rfl, hu, rfl⟩ := List.map_eq_cons_iff.1 htail
      obtain rfl := (inAscii_eq_iff (by simp)).1 hu
      exact .apart (by rwa [digitIn?_inAscii] at hc) (ih rfl)
  · intro h
    induction h with
    | last hc => exact .last (by rw [digitIn?_inAscii, hc])
    | next hc _ ih => exact .next (by rw [digitIn?_inAscii, hc]) ih
    | apart hc _ ih =>
      have hunderscore : inAscii '_' = '_' := by decide
      rw [List.map_cons, List.map_cons, hunderscore]
      exact .apart (by rw [digitIn?_inAscii, hc]) ih

private theorem digitIn?_underscore (base : Nat) : digitIn? base '_' = none := by
  unfold digitIn?
  rw [if_neg (by decide), if_neg (by decide)]
  split <;> decide

/-- Digits are read exactly from runs of them. -/
private theorem digits?_eq_some {base : Nat} : digits? base cs = some ds ↔ IsRun (digitIn? base) cs ds := by
  constructor
  · intro h
    fun_induction digits? base cs generalizing ds with
    | case1 => cases h
    | case2 c =>
      obtain ⟨d, hd, rfl⟩ := Option.map_eq_some_iff.1 h
      exact .last hd
    | case3 => cases h
    | case4 c cs d hd ih =>
      obtain ⟨ds', hds, rfl⟩ := Option.map_eq_some_iff.1 h
      exact .apart hd (ih hds)
    | case5 => cases h
    | case6 c c' cs hc d hd ih =>
      obtain ⟨ds', hds, rfl⟩ := Option.map_eq_some_iff.1 h
      exact .next hd (ih hds)
  · intro h
    induction h with
    | last hc =>
      rw [digits?, hc]
      rfl
    | next hc hs ih =>
      obtain ⟨c', cs', rfl, hc'⟩ := hs.exists_cons
      have hne : c' ≠ '_' := by
        rintro rfl
        rw [digitIn?_underscore] at hc'
        cases hc'
      rw [digits?, hc]
      · dsimp only
        rw [ih]
        rfl
      · exact hne
    | apart hc _ ih =>
      rw [digits?, hc]
      dsimp only
      rw [ih]
      rfl

/-! ### Texts -/

private theorem inAscii_of_isSign {c : Char} (hc : c ∈ ['+', '-']) : inAscii c = c :=
  (inAscii_eq_iff (List.mem_cons_of_mem _ hc)).2 rfl

/-- A sign of a text is its sign in ASCII, and nothing else becomes one. -/
private theorem exists_isSign (cs : List Char) : ∃ sign run negative, cs = sign ++ run ∧ IsSign sign negative ∧
    splitSign (cs.map inAscii) = (negative, run.map inAscii) := by
  cases cs with
  | nil => exact ⟨[], [], false, rfl, .none, rfl⟩
  | cons c cs =>
    by_cases hminus : c = '-'
    · subst hminus
      exact ⟨['-'], cs, true, rfl, .minus, by rw [List.map_cons, inAscii_of_isSign (by simp)]; rfl⟩
    by_cases hplus : c = '+'
    · subst hplus
      exact ⟨['+'], cs, false, rfl, .plus, by rw [List.map_cons, inAscii_of_isSign (by simp)]; rfl⟩
    · have hminus' : inAscii c ≠ '-' := fun h => hminus ((inAscii_eq_iff (by simp)).1 h)
      have hplus' : inAscii c ≠ '+' := fun h => hplus ((inAscii_eq_iff (by simp)).1 h)
      refine ⟨[], c :: cs, false, rfl, .none, ?_⟩
      simp [splitSign, hminus', hplus']

/-- The sign of a numeral is what is split off. -/
private theorem splitSign_of_isSign {sign run : List Char} {negative : Bool} (hsign : IsSign sign negative)
    (hrun : IsRun digitValue? run ds) : splitSign ((sign ++ run).map inAscii) = (negative, run.map inAscii) := by
  cases hsign with
  | plus => rw [List.singleton_append, List.map_cons, inAscii_of_isSign (by simp)]; rfl
  | minus => rw [List.singleton_append, List.map_cons, inAscii_of_isSign (by simp)]; rfl
  | none =>
    obtain ⟨c, cs, rfl, hc⟩ := hrun.exists_cons
    have hdigit : ∀ x ∈ ['+', '-'], digitIn? 10 x = none := by
      rw [List.forall_mem_cons, List.forall_mem_singleton]
      decide
    have hnone : ∀ x ∈ ['+', '-'], inAscii c ≠ x := by
      intro x hx h
      rw [← digitIn?_inAscii, h, hdigit x hx] at hc
      cases hc
    simp [splitSign, hnone '-' (by simp), hnone '+' (by simp)]

/-- What follows the sign is read if it is a run of digits that are not too many. -/
private theorem readInt_ten_eq_ok {text : String} {negative : Bool} {n : Int}
    (hsplit : splitSign (bareNumeral text) = (negative, cs)) : readInt 10 text = .ok n ↔
      ∃ ds, IsRun (digitIn? 10) cs ds ∧ ds.length ≤ digitLimit ∧ n = signed negative (ofDigits 10 ds) := by
  unfold readInt
  rw [hsplit]
  dsimp only
  rw [if_neg (by decide)]
  have hjoin := List.takeWhile_append_dropWhile
    (p := fun c => decide (c = '_') || (digitIn? 10 c).isSome) (l := cs)
  constructor
  · intro h
    split at h
    · cases h
    · rename_i ds hds
      split at h
      · cases h
      · rename_i hlimit
        split at h
        · cases h
        · rename_i hrest
          rw [Bool.not_eq_true, Bool.not_eq_false', List.isEmpty_iff] at hrest
          rw [hrest, List.append_nil] at hjoin
          rw [hjoin, digits?_eq_some] at hds
          cases h
          exact ⟨ds, hds, by simpa using hlimit, rfl⟩
  · rintro ⟨ds, hrun, hlimit, rfl⟩
    have hall : ∀ c ∈ cs, (decide (c = '_') || (digitIn? 10 c).isSome) = true := by
      simpa using hrun.forall
    rw [List.takeWhile_eq_self_iff.2 hall, List.dropWhile_eq_nil_iff.2 hall, digits?_eq_some.2 hrun]
    dsimp only
    rw [if_neg (by omega)]
    rfl

/-- A text without white space at its ends is read as the integer of which it is a numeral. -/
theorem readInt?_trim_eq_some {cs : List Char} {n : Int} :
    readInt? 10 (String.ofList (trim cs)) = some n ↔ Denotes (trim cs) n := by
  have hok : readInt? 10 (String.ofList (trim cs)) = some n ↔ readInt 10 (String.ofList (trim cs)) = .ok n := by
    unfold readInt?
    cases readInt 10 (String.ofList (trim cs)) <;> simp [Except.toOption]
  rw [hok]
  constructor
  · intro h
    obtain ⟨sign, run, negative, hcs, hsign, hsplit⟩ := exists_isSign (trim cs)
    rw [← bareNumeral_trim] at hsplit
    obtain ⟨ds, hrun, hlimit, rfl⟩ := (readInt_ten_eq_ok hsplit).1 h
    rw [hcs]
    exact .intro hsign (isRun_map_inAscii.1 hrun) hlimit
  · intro h
    generalize htrim : trim cs = numeral at h
    obtain ⟨hsign, hrun, hlimit⟩ := h
    have hsplit := splitSign_of_isSign hsign hrun
    rw [← htrim, ← bareNumeral_trim, htrim] at hsplit
    exact (readInt_ten_eq_ok hsplit).2 ⟨_, isRun_map_inAscii.2 hrun, hlimit, rfl⟩

end ThriftGateway.Number
