import ThriftGateway.Graph.Output
import ThriftGateway.Proofs.Graph.Int64
import ThriftGateway.Proofs.Number.Numeral

/-!
# What is accepted as an integer of 64 bits

Numbers and texts stand for integers, texts by a numeral between white space (`StandsFor`).  Exactly what stands for an
integer in range is read, and as this integer; all else is refused (`WideScalar.int64_accepts_exactly`).
-/

namespace ThriftGateway.Graph

open Number (Denotes IsRun IsSign decimal)
open Request (Literal)
open Text (digitValue? isDigit)

variable {n : Int} {v : Value}

/-- A value with the integer that it stands for. -/
inductive StandsFor : Value → Int → Prop
  | number (n : Int) : StandsFor (.int n) n
  | text {s : String} {n : Int} (h : Denotes (Text.trim s.toList) n) : StandsFor (.text s) n

/-- A literal with the integer that it stands for: what the text of a number or a text between quotes stands for. -/
inductive LiteralStandsFor : Literal → Int → Prop
  | number {digits : String} {n : Int} (h : StandsFor (.text digits) n) : LiteralStandsFor (.int digits) n
  | text {s : String} {block : Bool} {n : Int} (h : StandsFor (.text s) n) : LiteralStandsFor (.text s block) n

/-- The integers of 64 bits. -/
def IsInt64 (n : Int) : Prop := -2 ^ 63 ≤ n ∧ n ≤ 2 ^ 63 - 1

instance (n : Int) : Decidable (IsInt64 n) := inferInstanceAs (Decidable (_ ∧ _))

/-! ### What is accepted -/

private theorem integerOf_eq_ok : integerOf v = .ok n ↔ StandsFor v n := by
  constructor
  · intro h
    unfold integerOf at h
    split at h
    · cases h
    · cases h
      exact .number _
    · rename_i s
      cases hread : Number.readInt? 10 (String.ofList (Text.trim s.toList)) with
      | none =>
        rw [hread] at h
        cases h
      | some m =>
        rw [hread] at h
        cases h
        exact .text (Number.readInt?_trim_eq_some.1 hread)
    · cases h
  · rintro (_ | h)
    · rfl
    · rw [integerOf, Number.readInt?_trim_eq_some.2 h]

private theorem int64Of_eq_ok_iff : int64Of v = .ok n ↔ StandsFor v n ∧ IsInt64 n := by
  rw [int64Of_eq_ok, integerOf_eq_ok, inInt64Range_iff]
  rfl

private theorem int64OfLiteral_eq_ok_iff {l : Literal} :
    int64OfLiteral l = .ok n ↔ LiteralStandsFor l n ∧ IsInt64 n := by
  constructor
  · intro h
    unfold int64OfLiteral at h
    split at h
    · exact (int64Of_eq_ok_iff.1 h).imp_left .number
    · exact (int64Of_eq_ok_iff.1 h).imp_left .text
    · cases h
  · rintro ⟨h | h, hrange⟩
    · exact int64Of_eq_ok_iff.2 ⟨h, hrange⟩
    · exact int64Of_eq_ok_iff.2 ⟨h, hrange⟩

/-! ### What is refused -/

private theorem int64Of_of_beyond (h : inInt64Range n = false) : int64Of (.int n) = .error (.outOfRange (.int n)) := by
  show (if inInt64Range n = true then (pure n : Except ScalarError Int) else throw (.outOfRange (.int n))) = _
  rw [h]
  rfl

/-- What has no result has an error. -/
private theorem exists_error {ε α : Type} {r : Except ε α} (h : ∀ a, r ≠ .ok a) : ∃ e, r = .error e := by
  cases r with
  | error e => exact ⟨e, rfl⟩
  | ok a => exact absurd rfl (h a)

/-! ### The three directions -/

namespace WideScalar

/-- A value that stands for an integer of 64 bits is read as this integer and written as its decimal text, and any other
value is refused, with the error for it if a message can show the value; so are literals, which can always be shown. -/
theorem int64_accepts_exactly :
    (∀ v n, StandsFor v n → IsInt64 n →
      int64.input v = .ok (.int n) ∧ int64.output v = .ok (.text (decimal n))) ∧
    (∀ v, (¬ ∃ n, StandsFor v n ∧ IsInt64 n) → ∃ e, int64.input v = .error e ∧ int64.output v = .error e ∧
      (v.isWritable = true → CoercionError.ofScalar e = .scalar e)) ∧
    (∀ l n bindings, LiteralStandsFor l n → IsInt64 n → int64.inputLiteral l bindings = .ok (.int n)) ∧
    (∀ l bindings, (¬ ∃ n, LiteralStandsFor l n ∧ IsInt64 n) →
      ∃ e, int64.inputLiteral l bindings = .error e ∧ CoercionError.ofScalar e = .scalar e) := by
  refine ⟨fun v n hv hn => ?_, fun v hnone => ?_, fun l n bindings hl hn => ?_, fun l bindings hnone => ?_⟩
  · have hok : int64Of v = .ok n := int64Of_eq_ok_iff.2 ⟨hv, hn⟩
    rw [input_int64, output_int64, hok]
    exact ⟨rfl, rfl⟩
  · obtain ⟨e, he⟩ : ∃ e, int64Of v = .error e := exists_error fun n h => hnone ⟨n, int64Of_eq_ok_iff.1 h⟩
    rw [input_int64, output_int64, he]
    exact ⟨e, rfl, rfl, fun hv => if_pos (isWritable_of_int64Of he hv)⟩
  · rw [inputLiteral_int64, int64OfLiteral_eq_ok_iff.2 ⟨hl, hn⟩]
    rfl
  · obtain ⟨e, he⟩ : ∃ e, int64OfLiteral l = .error e :=
      exists_error fun n h => hnone ⟨n, int64OfLiteral_eq_ok_iff.1 h⟩
    rw [inputLiteral_int64, he]
    exact ⟨e, rfl, if_pos (isWritable_of_int64OfLiteral he)⟩

/-- Digits may be grouped, and those of any script are digits. -/
theorem int64_accepts_groups_and_scripts :
    int64.input (.text " -1_000\n") = .ok (.int (-1000)) ∧
    int64.output (.text "١٢٣") = .ok (.text "123") ∧
    (∃ e, int64.input (.text "1__0") = .error e ∧ CoercionError.ofScalar e = .scalar e) ∧
    int64.inputLiteral (.text "+7" false) [] = .ok (.int 7) ∧
    ∃ e, int64.inputLiteral (.bool true) [] = .error e := by
  obtain ⟨haccepted, hrefused, hliteral, hrefused'⟩ := int64_accepts_exactly
  have hrun : IsRun digitValue? ['1', '_', '0', '0', '0'] [1, 0, 0, 0] :=
    .apart (by decide) (.next (by decide) (.next (by decide) (.last (by decide))))
  have hgroups : Denotes (Text.trim " -1_000\n".toList) (-1000) := .intro .minus hrun (by decide)
  have hrun' : IsRun digitValue? ['١', '٢', '٣'] [1, 2, 3] :=
    .next (by decide) (.next (by decide) (.last (by decide)))
  have hscript : Denotes (Text.trim "١٢٣".toList) 123 := .intro .none hrun' (by decide)
  have hplus : Denotes (Text.trim "+7".toList) 7 :=
    .intro .plus (.last (by decide : digitValue? '7' = some 7)) (by decide)
  have hdouble : ¬ ∃ n, StandsFor (.text "1__0") n ∧ IsInt64 n := by
    rintro ⟨n, hn, hrange⟩
    have hok : int64Of (.text "1__0") = .ok n := int64Of_eq_ok_iff.2 ⟨hn, hrange⟩
    exact absurd hok (by rw [show int64Of (.text "1__0") = .error (.notInteger "1__0") by rfl]; nofun)
  have hbool : ¬ ∃ n, LiteralStandsFor (.bool true) n ∧ IsInt64 n := by
    rintro ⟨n, ⟨⟩, -⟩
  obtain ⟨e, he, -, hshown⟩ := hrefused _ hdouble
  obtain ⟨e', he', -⟩ := hrefused' _ [] hbool
  exact ⟨(haccepted _ _ (.text hgroups) (by decide)).1, (haccepted _ _ (.text hscript) (by decide)).2,
    ⟨e, he, hshown rfl⟩, hliteral _ _ [] (.text (.text hplus)) (by decide), e', he'⟩

/-- A text of `0` alone, repeated more often than a text may have digits, is a whole number that is not read. -/
private theorem integerOf_zeros {count : Nat} (h : Number.digitLimit < count) :
    integerOf (.text (String.ofList (List.replicate count '0'))) =
      .error (.notInteger (String.ofList (List.replicate count '0'))) := by
  have hzeros : (String.ofList (List.replicate count '0')).toList = [] ++ List.replicate count '0' :=
    String.toList_ofList
  have hne : List.replicate count '0' ≠ [] := by
    rw [Ne, List.replicate_eq_nil_iff]
    omega
  have hdigits : ∀ c ∈ List.replicate count '0', isDigit c = true := by
    intro c hc
    rw [List.eq_of_mem_replicate hc]
    decide
  have hsign : (([] : List Char), false) ∈ [([], false), (['+'], false), (['-'], true)] := List.mem_cons_self
  have htrim := trim_of_isWholeNumber ⟨[], _, Or.inl rfl, hne, hdigits, hzeros⟩
  rw [integerOf_text htrim, Number.readInt?, Number.readInt_ten_eq hzeros hsign hne hdigits, List.length_replicate,
    if_pos h]
  rfl

/-- Not only a sign and decimal digits in ASCII are accepted, nor all of them, and not every refusal can be told. -/
theorem not_int64_accepts_ascii :
    (¬ ∀ v n, int64.input v = .ok (.int n) ↔ (v = .int n ∨ ∃ s sign digits, v = .text s ∧
      Text.trim s.toList = sign ++ digits ∧ digits ≠ [] ∧ (∀ c ∈ digits, isDigit c = true) ∧
      ((sign = [] ∨ sign = ['+']) ∧ n = Nat.ofDigitChars 10 digits 0 ∨
        sign = ['-'] ∧ n = -Nat.ofDigitChars 10 digits 0)) ∧ IsInt64 n) ∧
    int64.input (.text "١٢٣") = .ok (.int 123) ∧
    int64.input (.text (String.ofList (List.replicate 4301 '0'))) =
      .error (.notInteger (String.ofList (List.replicate 4301 '0'))) ∧
    ∃ e, int64.input (.int (Number.tenTo 4300)) = .error e ∧ CoercionError.ofScalar e = .numeral .tooLongToWrite := by
  refine ⟨fun h => ?_, rfl, ?_, .outOfRange (.int (Number.tenTo 4300)), ?_, if_neg (by decide +kernel)⟩
  · have hread : int64.input (.text "1_000") = .ok (.int 1000) := rfl
    obtain ⟨hnumber | ⟨s, sign, digits, hs, htext, -, hdigits, hsign⟩, -⟩ := (h _ _).1 hread
    · cases hnumber
    · cases hs
      have hunderscore : '_' ∈ sign ++ digits := by
        rw [← htext]
        decide
      rcases List.mem_append.1 hunderscore with hmem | hmem
      · rcases hsign with ⟨rfl | rfl, -⟩ | ⟨rfl, -⟩ <;> exact absurd hmem (by decide)
      · exact absurd (hdigits _ hmem) (by decide)
  · rw [input_int64, int64Of, integerOf_zeros (by decide)]
    rfl
  · have hbeyond : inInt64Range (Number.tenTo 4300) = false := by decide +kernel
    rw [input_int64, int64Of_of_beyond hbeyond]
    rfl

end WideScalar

end ThriftGateway.Graph
