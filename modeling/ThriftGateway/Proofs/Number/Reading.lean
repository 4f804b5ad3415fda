import Mathlib.Data.List.TakeWhile
import ThriftGateway.Number.Integer
import ThriftGateway.Text.Ascii

/-!
# Texts of integers

A text in ASCII of a sign and digits is read as the number that the digits stand for (`readInt_of_digits`); decimal
digits must not be too many.  So the decimal text of a number is read as this number (`readInt?_decimal`).
-/

namespace ThriftGateway.Number

open Text (isDigit digitValue? trimBy)

/-- A character in ASCII that is no space. -/
def IsPlain (c : Char) : Prop := c.toNat < 127 ∧ isSpace c = false

instance (c : Char) : Decidable (IsPlain c) := inferInstanceAs (Decidable (_ ∧ _))

private theorem dropWhile_of_forall {p : Char → Bool} {cs : List Char} (h : ∀ c ∈ cs, p c = false) :
    cs.dropWhile p = cs := by
  cases cs with
  | nil => rfl
  | cons c cs => rw [List.dropWhile_cons_of_neg (by simp [h c List.mem_cons_self])]

theorem trimBy_of_forall {p : Char → Bool} {cs : List Char} (h : ∀ c ∈ cs, p c = false) : trimBy p cs = cs := by
  unfold trimBy
  rw [dropWhile_of_forall h, dropWhile_of_forall (by simpa using h), List.reverse_reverse]

/-- A front character that is not left out stays in front. -/
theorem exists_trimBy_cons {p : Char → Bool} {c : Char} (h : p c = false) (cs : List Char) :
    ∃ cs', trimBy p (c :: cs) = c :: cs' := by
  have hc : ¬ p c = true := by simp [h]
  refine ⟨(cs.reverse.dropWhile p).reverse, ?_⟩
  rw [trimBy, List.dropWhile_cons_of_neg hc, List.reverse_cons, List.dropWhile_append]
  split
  · rename_i hnil
    rw [List.isEmpty_iff.1 hnil, List.dropWhile_cons_of_neg hc]
    rfl
  · rw [List.reverse_append]
    rfl

private theorem inAscii_of_isPlain {c : Char} (h : IsPlain c) : inAscii c = c := if_pos h.1

theorem bareNumeral_of_isPlain {text : String} (h : ∀ c ∈ text.toList, IsPlain c) : bareNumeral text = text.toList := by
  have hascii : text.toList.map inAscii = text.toList := by
    conv => rhs; rw [← List.map_id text.toList]
    exact List.map_congr_left fun c hc => inAscii_of_isPlain (h c hc)
  rw [bareNumeral, hascii, trimBy_of_forall fun c hc => (h c hc).2]

/-- A text that begins with neither a sign nor a digit is no number. -/
theorem readInt?_of_front {text : String} {c : Char} {cs : List Char} (htext : text.toList = c :: cs)
    (hplain : IsPlain c) (hsign : c ≠ '-' ∧ c ≠ '+') (hdigit : digitIn? 10 c = none) : readInt? 10 text = none := by
  obtain ⟨cs', hbare⟩ : ∃ cs', bareNumeral text = c :: cs' := by
    rw [bareNumeral, htext, List.map_cons, inAscii_of_isPlain hplain]
    exact exists_trimBy_cons hplain.2 _
  have hsplit : splitSign (c :: cs') = (false, c :: cs') := by
    simp [splitSign, hsign.1, hsign.2]
  have hdigits : ∀ run, digits? 10 (c :: run) = none := by
    intro run
    unfold digits?
    split <;> simp_all
  have hrun : digits? 10 ((c :: cs').takeWhile fun c => decide (c = '_') || (digitIn? 10 c).isSome) = none := by
    rw [List.takeWhile_cons]
    split
    · exact hdigits _
    · rfl
  unfold readInt? readInt
  rw [hbare, hsplit]
  dsimp only
  rw [if_neg (by decide), hrun]
  rfl

/-- What holds of the ten decimal digits holds of every decimal digit. -/
theorem forall_of_isDigit {P : Char → Prop} (h : ∀ n ∈ List.range' 48 10, P (Char.ofNat n)) {c : Char}
    (hc : isDigit c = true) : P c := by
  have hbounds : 48 ≤ c.toNat ∧ c.toNat ≤ 57 := by
    simpa [isDigit, Char.le_def, UInt32.le_iff_toNat_le] using hc
  rw [← Char.ofNat_toNat c]
  exact h _ (by rw [List.mem_range'_1]; omega)

theorem isPlain_of_isDigit {c : Char} (h : isDigit c = true) : IsPlain c := by
  refine forall_of_isDigit ?_ h
  decide

theorem digitIn?_of_isDigit {c : Char} (h : isDigit c = true) (base : Nat) :
    digitIn? base c = some (c.toNat - 48) ∧ c ≠ '_' := by
  have hvalue : digitValue? c = some (c.toNat - 48) ∧ c ≠ '_' :=
    forall_of_isDigit (P := fun c => digitValue? c = some (c.toNat - 48) ∧ c ≠ '_') (by decide) h
  exact ⟨by rw [digitIn?, hvalue.1, Option.some_or], hvalue.2⟩

private theorem digits?_eq {base : Nat} {value : Char → Nat} : {cs : List Char} → cs ≠ [] →
    (∀ c ∈ cs, digitIn? base c = some (value c) ∧ c ≠ '_') → digits? base cs = some (cs.map value)
  | [], hne, _ => absurd rfl hne
  | [c], _, h => by
    rw [digits?, (h c (by simp)).1]
    rfl
  | c :: d :: cs, _, h => by
    have hd : d ≠ '_' := (h d (by simp)).2
    have hrest := digits?_eq (List.cons_ne_nil d cs) fun e he => h e (List.mem_cons_of_mem _ he)
    rw [digits?, (h c (by simp)).1]
    · dsimp only
      rw [hrest]
      rfl
    · exact hd

/-- A sign, perhaps `0x`, and digits are read as a number, unless they are too many decimal digits. -/
private theorem readInt_of_run {base : Nat} {text : String} {negative : Bool} {cs ds : List Char} {value : Char → Nat}
    (htext : ∀ c ∈ text.toList, IsPlain c) (hsign : splitSign text.toList = (negative, cs))
    (hmark : (if base = 16 then dropBaseMark cs else cs) = ds) (hne : ds ≠ [])
    (hds : ∀ c ∈ ds, digitIn? base c = some (value c) ∧ c ≠ '_') :
    readInt base text =
      if base = 10 ∧ digitLimit < ds.length then .error (.tooManyDigits ds.length)
      else .ok (if negative then -(ofDigits base (ds.map value) : Int) else (ofDigits base (ds.map value) : Int)) := by
  have hrun : ∀ c ∈ ds, (decide (c = '_') || (digitIn? base c).isSome) = true := by
    intro c hc
    rw [(hds c hc).1]
    simp
  have htake : ds.takeWhile (fun c => decide (c = '_') || (digitIn? base c).isSome) = ds := by
    rw [List.takeWhile_eq_self_iff]
    exact hrun
  have hdrop : ds.dropWhile (fun c => decide (c = '_') || (digitIn? base c).isSome) = [] := by
    rw [List.dropWhile_eq_nil_iff]
    exact hrun
  unfold readInt
  rw [bareNumeral_of_isPlain htext, hsign]
  dsimp only
  rw [hmark, htake, hdrop, digits?_eq hne hds]
  dsimp only
  rw [List.length_map]
  rfl

theorem readInt_of_digits {base : Nat} {text : String} {negative : Bool} {cs ds : List Char} {value : Char → Nat}
    (htext : ∀ c ∈ text.toList, IsPlain c) (hsign : splitSign text.toList = (negative, cs))
    (hmark : (if base = 16 then dropBaseMark cs else cs) = ds) (hne : ds ≠ [])
    (hds : ∀ c ∈ ds, digitIn? base c = some (value c) ∧ c ≠ '_') (hlimit : base = 10 → ds.length ≤ digitLimit) :
    readInt base text =
      .ok (if negative then -(ofDigits base (ds.map value) : Int) else (ofDigits base (ds.map value) : Int)) := by
  rw [readInt_of_run htext hsign hmark hne hds, if_neg fun h => Nat.not_lt.2 (hlimit h.1) h.2]

/-! ### Decimal texts -/

/-- Decimal digits are read as the number that they stand for. -/
private theorem ofDigits_eq_ofDigitChars (cs : List Char) :
    ofDigits 10 (cs.map fun c => c.toNat - 48) = Nat.ofDigitChars 10 cs 0 := by
  rw [ofDigits, List.foldl_map, Nat.ofDigitChars_eq_foldl]
  simp only [Nat.mul_comm]
  rfl

private theorem splitSign_of_isDigit {digits : List Char} (hne : digits ≠ [])
    (hdigits : ∀ c ∈ digits, isDigit c = true) : splitSign digits = (false, digits) := by
  cases digits with
  | nil => exact absurd rfl hne
  | cons c cs =>
    have hsign : c ≠ '-' ∧ c ≠ '+' :=
      forall_of_isDigit (P := fun c => c ≠ '-' ∧ c ≠ '+') (by decide) (hdigits c List.mem_cons_self)
    simp [splitSign, hsign.1, hsign.2]

/-- The characters of a sign, which may be left out. -/
theorem isPlain_of_sign {sign : List Char} {negative : Bool}
    (h : (sign, negative) ∈ [([], false), (['+'], false), (['-'], true)]) : ∀ c ∈ sign, IsPlain c := by
  have hplus : IsPlain '+' := by decide
  have hminus : IsPlain '-' := by decide
  simp only [List.mem_cons, Prod.mk.injEq, List.not_mem_nil, or_false] at h
  rcases h with ⟨rfl, -⟩ | ⟨rfl, -⟩ | ⟨rfl, -⟩
  · exact List.forall_mem_nil _
  · exact List.forall_mem_singleton.2 hplus
  · exact List.forall_mem_singleton.2 hminus

section Ten

variable {text : String} {sign digits : List Char} {negative : Bool} (htext : text.toList = sign ++ digits)
  (hsign : (sign, negative) ∈ [([], false), (['+'], false), (['-'], true)]) (hne : digits ≠ [])
  (hdigits : ∀ c ∈ digits, isDigit c = true)

include htext hsign hne hdigits

/-- A sign and decimal digits are read as a number, unless they are too many. -/
theorem readInt_ten_eq :
    readInt 10 text =
      if digitLimit < digits.length then .error (.tooManyDigits digits.length)
      else .ok (if negative then -(Nat.ofDigitChars 10 digits 0 : Int) else Nat.ofDigitChars 10 digits 0) := by
  have hplain : ∀ c ∈ text.toList, IsPlain c := by
    rw [htext]
    intro c hc
    rcases List.mem_append.1 hc with hc | hc
    · exact isPlain_of_sign hsign c hc
    · exact isPlain_of_isDigit (hdigits c hc)
  have hsplit : splitSign text.toList = (negative, digits) := by
    rw [htext]
    simp only [List.mem_cons, Prod.mk.injEq, List.not_mem_nil, or_false] at hsign
    rcases hsign with ⟨rfl, rfl⟩ | ⟨rfl, rfl⟩ | ⟨rfl, rfl⟩
    · exact splitSign_of_isDigit hne hdigits
    · rfl
    · rfl
  rw [readInt_of_run hplain hsplit (if_neg (by decide)) hne fun c hc => digitIn?_of_isDigit (hdigits c hc) 10,
    ofDigits_eq_ofDigitChars]
  simp only [true_and]

private theorem readInt_ten (hlimit : digits.length ≤ digitLimit) :
    readInt 10 text =
      .ok (if negative then -(Nat.ofDigitChars 10 digits 0 : Int) else Nat.ofDigitChars 10 digits 0) := by
  rw [readInt_ten_eq htext hsign hne hdigits, if_neg (Nat.not_lt.2 hlimit)]

end Ten

theorem isDigit_of_mem_toDigits {n : Nat} {c : Char} (h : c ∈ Nat.toDigits 10 n) : isDigit c = true := by
  have hdigit := Nat.isDigit_of_mem_toDigits (by decide) (by decide) h
  simpa [Char.isDigit, isDigit, Char.le_def] using hdigit

/-- The decimal text of a number: a sign if it is negative, and its digits. -/
theorem decimal_toList (n : Int) :
    (decimal n).toList = (if n < 0 then ['-'] else []) ++ Nat.toDigits 10 n.natAbs := by
  cases n with
  | ofNat m =>
    rw [if_neg (by simp)]
    exact Nat.toList_repr
  | negSucc m =>
    rw [if_pos (Int.negSucc_lt_zero m)]
    show ("-" ++ Nat.repr (m + 1)).toList = _
    rw [String.toList_append, Nat.toList_repr]
    rfl

/-- Different numbers have different decimal texts. -/
theorem decimal_injective : Function.Injective decimal := by
  have hdigits : ∀ {k l : Nat}, Nat.toDigits 10 k = Nat.toDigits 10 l → k = l := by
    intro k l h
    rw [← Nat.ofDigitChars_ten_toDigits (n := k), h, Nat.ofDigitChars_ten_toDigits]
  -- a sign is no digit
  have hsign : ∀ {k l : Nat}, ['-'] ++ Nat.toDigits 10 k ≠ Nat.toDigits 10 l := by
    intro k l h
    have hmem : '-' ∈ Nat.toDigits 10 l := h ▸ List.mem_cons_self
    exact absurd (isDigit_of_mem_toDigits hmem) (by decide)
  intro m n h
  have htext : (decimal m).toList = (decimal n).toList := congrArg String.toList h
  rw [decimal_toList, decimal_toList] at htext
  by_cases hm : m < 0
  · by_cases hn : n < 0
    · rw [if_pos hm, if_pos hn] at htext
      have := hdigits (List.append_cancel_left htext)
      omega
    · rw [if_pos hm, if_neg hn, List.nil_append] at htext
      exact absurd htext hsign
  · by_cases hn : n < 0
    · rw [if_neg hm, if_pos hn, List.nil_append] at htext
      exact absurd htext.symm hsign
    · rw [if_neg hm, if_neg hn, List.nil_append, List.nil_append] at htext
      have := hdigits htext
      omega

/-- The decimal text of a number is read as the number, unless it is too long. -/
theorem readInt?_decimal {n : Int} (h : (Nat.toDigits 10 n.natAbs).length ≤ digitLimit) :
    readInt? 10 (decimal n) = some n := by
  have hsign : ((if n < 0 then ['-'] else [] : List Char), decide (n < 0)) ∈
      [([], false), (['+'], false), (['-'], true)] := by
    by_cases hn : n < 0 <;> simp [hn]
  have hread := readInt_ten (decimal_toList n) hsign Nat.toDigits_ne_nil (fun _ => isDigit_of_mem_toDigits) h
  unfold readInt?
  rw [hread, Nat.ofDigitChars_ten_toDigits, Except.toOption]
  congr 1
  by_cases hn : n < 0
  · rw [if_pos (by simpa using hn)]
    omega
  · rw [if_neg (by simpa using hn)]
    omega

end ThriftGateway.Number
