import Mathlib.Data.Nat.Digits.Defs
import ThriftGateway.Graph.Output
import ThriftGateway.Proofs.Number.Reading
import ThriftGateway.Proofs.Request.Spelling

/-!
# Integers of 64 bits as texts

An integer of 64 bits is written as its decimal text, and this text is read as the integer again, whether it comes as a
value or as a literal.  What is read is always such an integer, and a literal is read as the value is that it stands for
(`WideScalar.int64_written_and_read`).
-/

namespace ThriftGateway.Graph

open Number (IsPlain decimal digitIn?)
open Request (BeginsName IsWholeNumber Literal isSpelled_of_parseLiteral)
open Text (isDigit isNameStart isWhite)

variable {n : Int}

theorem inInt64Range_iff : inInt64Range n = true ↔ -2 ^ 63 ≤ n ∧ n ≤ 2 ^ 63 - 1 := by
  unfold inInt64Range int64Min int64Max
  rw [Bool.and_eq_true, decide_eq_true_iff, decide_eq_true_iff]
  omega

/-! ### Decimal texts -/

private theorem not_isWhite_of_isDigit {c : Char} (h : isDigit c = true) : isWhite c = false := by
  refine Number.forall_of_isDigit (P := fun c => isWhite c = false) ?_ h
  decide

/-- There is no white space in a whole number. -/
theorem trim_of_isWholeNumber {s : String} (h : IsWholeNumber s) : Text.trim s.toList = s.toList := by
  obtain ⟨sign, digits, hsign, -, hdigits, htext⟩ := h
  refine Number.trimBy_of_forall fun c hc => ?_
  rw [htext] at hc
  rcases List.mem_append.1 hc with hc | hc
  · rcases hsign with rfl | rfl
    · cases hc
    · obtain rfl := List.mem_singleton.1 hc
      decide
  · exact not_isWhite_of_isDigit (hdigits c hc)

private theorem isWholeNumber_decimal (n : Int) : IsWholeNumber (decimal n) := by
  refine ⟨_, _, ?_, Nat.toDigits_ne_nil, fun _ => Number.isDigit_of_mem_toDigits, Number.decimal_toList n⟩
  by_cases hn : n < 0
  · exact Or.inr (if_pos hn)
  · exact Or.inl (if_neg hn)

/-- A text without white space at its ends stands for the integer that it is read as. -/
theorem integerOf_text {s : String} (h : Text.trim s.toList = s.toList) :
    integerOf (.text s) = (Number.readInt? 10 s).elim (.error (.notInteger s)) .ok := by
  rw [integerOf, h, String.ofList_toList]
  cases Number.readInt? 10 s <;> rfl

/-- The decimal text of an integer of 64 bits is far from too long. -/
private theorem integerOf_decimal (h : inInt64Range n = true) : integerOf (.text (decimal n)) = .ok n := by
  have hbounds := inInt64Range_iff.1 h
  have hlength : (Nat.toDigits 10 n.natAbs).length ≤ 19 := by
    apply Nat.toDigits_length
    · decide
    · omega
  have hread : Number.readInt? 10 (decimal n) = some n := by
    apply Number.readInt?_decimal
    unfold Number.digitLimit
    omega
  rw [integerOf_text (trim_of_isWholeNumber (isWholeNumber_decimal n)), hread, Option.elim_some]

/-- What holds of the letters and the underscore holds of every character that begins a name. -/
private theorem forall_of_isNameStart {P : Char → Prop}
    (h : ∀ n ∈ 95 :: (List.range' 97 26 ++ List.range' 65 26), P (Char.ofNat n))
    {c : Char} (hc : isNameStart c = true) : P c := by
  have hbounds : c = '_' ∨ 97 ≤ c.toNat ∧ c.toNat ≤ 122 ∨ 65 ≤ c.toNat ∧ c.toNat ≤ 90 := by
    simpa [isNameStart, Char.le_def, UInt32.le_iff_toNat_le, or_assoc] using hc
  rw [← Char.ofNat_toNat c]
  refine h _ ?_
  rw [List.mem_cons, List.mem_append, List.mem_range'_1, List.mem_range'_1]
  rcases hbounds with rfl | hbounds | hbounds
  · exact Or.inl rfl
  · omega
  · omega

/-- A name stands for no integer. -/
private theorem integerOf_of_beginsName {s : String} (h : BeginsName s) :
    integerOf (.text s) = .error (.notInteger s) := by
  obtain ⟨c, cs, hc, htext⟩ := h
  obtain ⟨hplain, hsign, hdigit, hwhite⟩ :
      IsPlain c ∧ (c ≠ '-' ∧ c ≠ '+') ∧ digitIn? 10 c = none ∧ isWhite c = false :=
    forall_of_isNameStart
      (P := fun c => IsPlain c ∧ (c ≠ '-' ∧ c ≠ '+') ∧ digitIn? 10 c = none ∧ isWhite c = false) (by decide) hc
  obtain ⟨cs', htrim⟩ := Number.exists_trimBy_cons hwhite cs
  have hread : Number.readInt? 10 (String.ofList (Text.trim s.toList)) = none := by
    rw [htext, Text.trim, htrim]
    exact Number.readInt?_of_front String.toList_ofList hplain hsign hdigit
  rw [integerOf, hread]

/-! ### Values and literals -/

/-- What is in range of what a value stands for. -/
theorem int64Of_eq_ok {v : Value} : int64Of v = .ok n ↔ integerOf v = .ok n ∧ inInt64Range n = true := by
  unfold int64Of
  cases integerOf v with
  | error e => exact ⟨nofun, nofun⟩
  | ok m =>
    show (if inInt64Range m = true then (pure m : Except ScalarError Int) else throw (.outOfRange v)) = .ok n ↔ _
    split
    · rename_i hm
      constructor
      · rintro ⟨⟩
        exact ⟨rfl, hm⟩
      · rintro ⟨⟨⟩, -⟩
        rfl
    · rename_i hm
      constructor
      · rintro ⟨⟩
      · rintro ⟨⟨⟩, h⟩
        exact absurd h hm

/-- A whole number denotes what its text stands for, if that is an integer at all. -/
private theorem int64Of_intValue {digits : String} (h : IsWholeNumber digits) :
    int64Of (.text digits) = .ok n ↔ int64Of (Literal.intValue digits) = .ok n := by
  rw [int64Of_eq_ok, int64Of_eq_ok, integerOf_text (trim_of_isWholeNumber h), Literal.intValue]
  refine and_congr_left fun _ => ?_
  cases Number.readInt? 10 digits with
  | none => exact ⟨nofun, nofun⟩
  | some m => exact Iff.rfl

/-- A literal stands for the integer that the value stands for which it denotes, or both stand for none. -/
private theorem int64OfLiteral_eq_ok {l : Literal} (hvar : ∀ name, l ≠ .var name) (hl : l.IsSpelled)
    (bindings : List (String × Value)) : int64OfLiteral l = .ok n ↔ int64Of (l.toValue bindings) = .ok n := by
  have hneither : ∀ {l : Literal} {e e' : ScalarError}, int64OfLiteral l = .error e →
      int64Of (l.toValue bindings) = .error e' →
      (int64OfLiteral l = .ok n ↔ int64Of (l.toValue bindings) = .ok n) := by
    intro l e e' h h'
    rw [h, h']
    exact ⟨nofun, nofun⟩
  cases l with
  | var name => exact absurd rfl (hvar name)
  | int digits => exact int64Of_intValue hl
  | text s block => exact Iff.rfl
  | word name =>
    have hname : int64Of (.text name) = .error (.notInteger name) := by
      rw [int64Of, integerOf_of_beginsName hl]
      rfl
    exact hneither rfl hname
  | float text => exact hneither rfl rfl
  | bool b => exact hneither rfl rfl
  | null => exact hneither rfl rfl
  | list items => exact hneither rfl rfl
  | object fields => exact hneither rfl rfl

/-! ### What is refused -/

/-- A refusal is about the value, so it can be shown if the value can. -/
private theorem isWritable_of_integerOf {v : Value} {e : ScalarError} (h : integerOf v = .error e)
    (hv : v.isWritable = true) : e.isWritable = true := by
  unfold integerOf at h
  split at h
  · cases h
    rfl
  · cases h
  · split at h
    · cases h
    · cases h
      rfl
  · cases h
    exact hv

theorem isWritable_of_int64Of {v : Value} {e : ScalarError} (h : int64Of v = .error e) (hv : v.isWritable = true) :
    e.isWritable = true := by
  unfold int64Of at h
  cases hn : integerOf v with
  | error e' =>
    rw [hn] at h
    cases h
    exact isWritable_of_integerOf hn hv
  | ok n =>
    rw [hn] at h
    change (if inInt64Range n = true then (pure n : Except ScalarError Int) else throw (.outOfRange v)) = .error e at h
    split at h
    · cases h
    · cases h
      exact hv

/-- Texts can always be shown. -/
theorem isWritable_of_int64OfLiteral {l : Literal} {e : ScalarError} (h : int64OfLiteral l = .error e) :
    e.isWritable = true := by
  unfold int64OfLiteral at h
  split at h
  · exact isWritable_of_int64Of h rfl
  · exact isWritable_of_int64Of h rfl
  · cases h
    rfl

namespace WideScalar

theorem input_int64 (v : Value) : int64.input v = (int64Of v).map .int := by
  rw [input]
  cases int64Of v <;> rfl

theorem output_int64 (v : Value) : int64.output v = (int64Of v).map fun n => .text (decimal n) := by
  rw [output]
  cases int64Of v <;> rfl

theorem inputLiteral_int64 (l : Literal) (bindings : List (String × Value)) :
    int64.inputLiteral l bindings = (int64OfLiteral l).map .int := by
  rw [inputLiteral]
  cases int64OfLiteral l <;> rfl

/-- An integer of 64 bits is written as its decimal text, and read again from the integer and from the text, as a value
and as a literal.  Every value stands for such an integer or is refused, and so is every literal that is spelled, which
is read as the value is that it denotes; what is refused is refused with the error for it, if a message can show the
value. -/
theorem int64_written_and_read :
    (∀ n : Int, -2 ^ 63 ≤ n → n ≤ 2 ^ 63 - 1 →
      int64.output (.int n) = .ok (.text (decimal n)) ∧ int64.input (.int n) = .ok (.int n) ∧
      int64.input (.text (decimal n)) = .ok (.int n) ∧
      ∀ bindings, int64.inputLiteral (.int (decimal n)) bindings = .ok (.int n) ∧
        ∀ block, int64.inputLiteral (.text (decimal n) block) bindings = .ok (.int n)) ∧
    (∀ v, (∃ n : Int, -2 ^ 63 ≤ n ∧ n ≤ 2 ^ 63 - 1 ∧ int64.input v = .ok (.int n) ∧
        int64.output v = .ok (.text (decimal n)) ∧ int64.output (.text (decimal n)) = .ok (.text (decimal n))) ∨
      ∃ e, int64.input v = .error e ∧ int64.output v = .error e) ∧
    (∀ l bindings, (∀ name, l ≠ .var name) → l.IsSpelled →
      (∃ n : Int, int64.inputLiteral l bindings = .ok (.int n) ∧ int64.input (l.toValue bindings) = .ok (.int n)) ∨
      ∃ e e', int64.inputLiteral l bindings = .error e ∧ int64.input (l.toValue bindings) = .error e' ∧
        CoercionError.ofScalar e = .scalar e ∧
        ((l.toValue bindings).isWritable = true → CoercionError.ofScalar e' = .scalar e')) ∧
    (∀ text l, Request.parseLiteral text = .ok l → l.IsSpelled) := by
  refine ⟨fun n hmin hmax => ?_, fun v => ?_, fun l bindings hvar hl => ?_, fun text l => isSpelled_of_parseLiteral⟩
  · have hrange : inInt64Range n = true := inInt64Range_iff.2 ⟨hmin, hmax⟩
    have hnumber : int64Of (.int n) = .ok n := int64Of_eq_ok.2 ⟨rfl, hrange⟩
    have htext : int64Of (.text (decimal n)) = .ok n := int64Of_eq_ok.2 ⟨integerOf_decimal hrange, hrange⟩
    have hliteral : ∀ l bindings, int64OfLiteral l = int64Of (.text (decimal n)) →
        int64.inputLiteral l bindings = .ok (.int n) := by
      intro l bindings hl
      rw [inputLiteral_int64, hl, htext]
      rfl
    refine ⟨?_, ?_, ?_, fun bindings => ⟨hliteral _ bindings rfl, fun block => hliteral _ bindings rfl⟩⟩
    · rw [output_int64, hnumber]
      rfl
    · rw [input_int64, hnumber]
      rfl
    · rw [input_int64, htext]
      rfl
  · rw [input_int64, output_int64]
    cases hv : int64Of v with
    | error e => exact Or.inr ⟨e, rfl, rfl⟩
    | ok n =>
      obtain ⟨-, hrange⟩ := int64Of_eq_ok.1 hv
      obtain ⟨hmin, hmax⟩ := inInt64Range_iff.1 hrange
      refine Or.inl ⟨n, hmin, hmax, rfl, rfl, ?_⟩
      rw [output_int64, int64Of_eq_ok.2 ⟨integerOf_decimal hrange, hrange⟩]
      rfl
  · rw [inputLiteral_int64, input_int64]
    cases hliteral : int64OfLiteral l with
    | ok n =>
      rw [(int64OfLiteral_eq_ok hvar hl bindings).1 hliteral]
      exact Or.inl ⟨n, rfl, rfl⟩
    | error e =>
      cases hvalue : int64Of (l.toValue bindings) with
      | error e' =>
        exact Or.inr ⟨e, e', rfl, rfl, if_pos (isWritable_of_int64OfLiteral hliteral), fun hv =>
          if_pos (isWritable_of_int64Of hvalue hv)⟩
      | ok n =>
        rw [(int64OfLiteral_eq_ok hvar hl bindings).2 hvalue] at hliteral
        cases hliteral

/-- The least of these integers; a literal that is a number of its own, and one that is a word. -/
theorem least_int64_written_and_read :
    int64.output (.int (-2 ^ 63)) = .ok (.text "-9223372036854775808") ∧
    int64.inputLiteral (.int "-9223372036854775808") [] = .ok (.int (-2 ^ 63)) ∧
    (Request.parseLiteral "-0" = .ok (.int "-0") ∧ (Literal.int "-0").IsSpelled) ∧
    ((Literal.word "Infinity").IsSpelled ∧
      ∃ e e', int64.inputLiteral (.word "Infinity") [] = .error e ∧ int64.input (.text "Infinity") = .error e' ∧
        CoercionError.ofScalar e = .scalar e ∧ CoercionError.ofScalar e' = .scalar e') := by
  obtain ⟨hnumber, -, hliteral, hspelled⟩ := int64_written_and_read
  have hdecimal : decimal (-2 ^ 63) = "-9223372036854775808" := by decide +kernel
  obtain ⟨hout, -, -, hin⟩ := hnumber (-2 ^ 63) le_rfl (by decide)
  rw [hdecimal] at hout hin
  have hview : (match Request.parseLiteral "-0" with
      | .ok (.int digits) => digits = "-0"
      | _ => false) = true := by decide +kernel
  have hparse : Request.parseLiteral "-0" = .ok (.int "-0") := by
    split at hview
    · rename_i digits hdigits
      rw [hdigits, of_decide_eq_true hview]
    · cases hview
  have hword : (Literal.word "Infinity").IsSpelled := ⟨'I', "nfinity".toList, by decide, by decide⟩
  refine ⟨hout, (hin []).1, ⟨hparse, hspelled _ _ hparse⟩, hword, ?_⟩
  rcases hliteral (.word "Infinity") [] nofun hword with ⟨n, hn, -⟩ | hneither
  · cases hn
  · obtain ⟨e, e', he, he', hscalar, hscalar'⟩ := hneither
    exact ⟨e, e', he, he', hscalar, hscalar' rfl⟩

end WideScalar

end ThriftGateway.Graph
