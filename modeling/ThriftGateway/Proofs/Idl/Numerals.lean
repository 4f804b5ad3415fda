import ThriftGateway.Number.Double
import ThriftGateway.Proofs.Idl.Writing
import ThriftGateway.Proofs.Number.Reading

/-!
# Numerals can be read

What a document has as a number can be read as one: an integer, unless it has too many decimal digits
(`isSome_readInt?_iff`), and a number with a point or an exponent (`exists_readDouble_of_isText`).
-/

namespace ThriftGateway.Idl

open Number (IsPlain NumeralError)
open Text (isDigit isHexDigit digitValue?)

/-! ### What numerals consist of -/

/-- The sign before a number, whether it is a minus, and the rest. -/
private theorem exists_sign (cs : List Char) :
    ∃ sign negative, (sign, negative) ∈ [([], false), (['+'], false), (['-'], true)] ∧ cs = sign ++ (splitSign cs).2 ∧
      (splitSign cs).1 = sign.length ∧ Number.splitSign cs = (negative, (splitSign cs).2) := by
  unfold splitSign
  split
  · exact ⟨['+'], false, by simp, rfl, rfl, rfl⟩
  · exact ⟨['-'], true, by simp, rfl, rfl, rfl⟩
  · rename_i hplus hminus
    refine ⟨[], false, by simp, rfl, rfl, ?_⟩
    unfold Number.splitSign
    split
    · exact absurd rfl (hminus _)
    · exact absurd rfl (hplus _)
    · rfl

private theorem forall_of_spanLength {p : Char → Bool} {cs : List Char} (h : spanLength p cs = cs.length) :
    ∀ c ∈ cs, p c = true :=
  List.takeWhile_eq_self_iff.1 ((List.takeWhile_prefix p).eq_of_length h)

/-- A text in two: its longest front part of a kind of characters, and the rest. -/
theorem exists_span (p : Char → Bool) (cs : List Char) :
    ∃ front behind, cs = front ++ behind ∧ (∀ c ∈ front, p c = true) ∧ spanLength p cs = front.length ∧
      cs.drop (spanLength p cs) = behind := by
  refine ⟨cs.takeWhile p, cs.dropWhile p, (List.takeWhile_append_dropWhile).symm, fun c hc => List.mem_takeWhile_imp hc,
    rfl, ?_⟩
  have hdrop : (cs.takeWhile p ++ cs.dropWhile p).drop (spanLength p cs) = cs.dropWhile p := List.drop_left
  rwa [List.takeWhile_append_dropWhile] at hdrop

/-- An integer has digits behind its sign, and nothing else. -/
private theorem forall_of_matchInt {cs : List Char} (h : matchInt cs = some cs.length) :
    (splitSign cs).2 ≠ [] ∧ ∀ c ∈ (splitSign cs).2, isDigit c = true := by
  obtain ⟨sign, negative, -, hcs, hlength, -⟩ := exists_sign cs
  have hcount := congrArg List.length hcs
  rw [List.length_append] at hcount
  unfold matchInt at h
  dsimp only at h
  split at h
  · cases h
  · rename_i hpos
    rw [Option.some.injEq] at h
    refine ⟨fun hnil => hpos (by rw [hnil]; rfl), forall_of_spanLength (by omega)⟩

/-- A hexadecimal integer has its mark and digits behind its sign, and nothing else. -/
private theorem exists_of_matchHex {cs : List Char} (h : matchHex cs = some cs.length) :
    ∃ digits, (splitSign cs).2 = '0' :: 'x' :: digits ∧ digits ≠ [] ∧ ∀ c ∈ digits, isHexDigit c = true := by
  obtain ⟨sign, negative, -, hcs, hlength, -⟩ := exists_sign cs
  have hcount := congrArg List.length hcs
  rw [List.length_append] at hcount
  unfold matchHex at h
  dsimp only at h
  split at h
  · rename_i digits hdigits
    rw [hdigits] at hcount
    simp only [List.length_cons] at hcount
    split at h
    · cases h
    · rename_i hpos
      rw [Option.some.injEq] at h
      exact ⟨digits, hdigits, fun hnil => hpos (by rw [hnil]; rfl), forall_of_spanLength (by omega)⟩
  · cases h

/-- What may stand behind the digits of a number: nothing, or an exponent. -/
def IsExponent (cs : List Char) : Prop := (matchExponent cs).getD 0 = cs.length

theorem IsExponent.head? {cs : List Char} (h : IsExponent cs) : ∀ c ∈ cs.head?, c = 'e' ∨ c = 'E' := by
  intro c hc
  cases cs with
  | nil => cases hc
  | cons d cs =>
    obtain rfl : d = c := by simpa using hc
    unfold IsExponent matchExponent at h
    split at h
    · rename_i heq
      cases heq
      exact Or.inl rfl
    · rename_i heq
      cases heq
      exact Or.inr rfl
    · cases h

/-- An exponent is a letter and an integer. -/
theorem IsExponent.matchInt {e : Char} {cs : List Char} (h : IsExponent (e :: cs)) :
    Idl.matchInt cs = some cs.length := by
  have hletter : matchExponent (e :: cs) = (Idl.matchInt cs).map (· + 1) := by
    rcases h.head? e rfl with rfl | rfl <;> rfl
  unfold IsExponent at h
  rw [hletter] at h
  cases hm : Idl.matchInt cs with
  | none =>
    rw [hm] at h
    cases h
  | some n =>
    rw [hm] at h
    rw [show n = cs.length from Nat.succ.inj h]

/-- A number with a point or an exponent: digits, a point and digits if there is a point, and perhaps an exponent. -/
private theorem exists_of_matchDouble {cs : List Char} (h : matchDouble cs = some cs.length) :
    ∃ whole middle behind, (splitSign cs).2 = whole ++ (middle ++ behind) ∧ (∀ c ∈ whole, isDigit c = true) ∧
      IsExponent behind ∧
      (middle = [] ∧ whole ≠ [] ∨
        ∃ fraction, middle = '.' :: fraction ∧ (∀ c ∈ fraction, isDigit c = true) ∧ (whole = [] → fraction ≠ [])) := by
  obtain ⟨sign, negative, -, hcs, hlength, -⟩ := exists_sign cs
  have hcount := congrArg List.length hcs
  rw [List.length_append] at hcount
  unfold matchDouble at h
  dsimp only at h
  generalize (splitSign cs).2 = body at *
  obtain ⟨n, hn, hsum⟩ := Option.map_eq_some_iff.1 h
  obtain ⟨whole, rest, rfl, hwhole, hspan, hdrop⟩ := exists_span isDigit body
  rw [hdrop, hspan] at hn
  rw [List.length_append] at hcount
  refine ⟨whole, ?_⟩
  rcases Option.or_eq_some_iff.1 hn with hexponent | ⟨-, hpointed⟩
  · split at hexponent
    · cases hexponent
    · rename_i hpos
      obtain ⟨e, he, rfl⟩ := Option.map_eq_some_iff.1 hexponent
      refine ⟨[], rest, rfl, hwhole, ?_, Or.inl ⟨rfl, fun hnil => hpos (by rw [hnil]; rfl)⟩⟩
      rw [IsExponent, he]
      show e = _
      omega
  · unfold matchPointed at hpointed
    dsimp only at hpointed
    rw [hdrop, hspan] at hpointed
    split at hpointed
    · rename_i rest
      obtain ⟨fraction, behind, rfl, hfraction, hspan', hdrop'⟩ := exists_span isDigit rest
      rw [hdrop', hspan'] at hpointed
      split at hpointed
      · cases hpointed
      · rename_i hpos
        rw [Option.some.injEq] at hpointed
        simp only [List.length_cons, List.length_append] at hcount
        refine ⟨'.' :: fraction, behind, rfl, hwhole, ?_, Or.inr ⟨fraction, rfl, hfraction, ?_⟩⟩
        · show _ = _
          omega
        · rintro rfl rfl
          exact hpos ⟨rfl, rfl⟩
    · cases hpointed

/-! ### Reading integers -/

/-- A decimal integer can be read exactly if it does not have too many digits. -/
theorem isSome_readInt?_iff {text : String} (h : Terminal.intConstant.IsText text) :
    (Number.readInt? 10 text).isSome = true ↔ (text.toList.filter isDigit).length ≤ Number.digitLimit := by
  obtain ⟨sign, negative, hsign, htext, -, -⟩ := exists_sign text.toList
  obtain ⟨hne, hdigits⟩ := forall_of_matchInt h
  have hnone : sign.filter isDigit = [] := by
    simp only [List.mem_cons, Prod.mk.injEq, List.not_mem_nil, or_false] at hsign
    rcases hsign with ⟨rfl, -⟩ | ⟨rfl, -⟩ | ⟨rfl, -⟩ <;> rfl
  have hfilter : text.toList.filter isDigit = (splitSign text.toList).2 := by
    rw [htext, List.filter_append, hnone, List.nil_append, ← htext, List.filter_eq_self.2 hdigits]
  unfold Number.readInt?
  rw [hfilter, Number.readInt_ten_eq htext hsign hne hdigits]
  split
  · rename_i hlong
    exact ⟨fun hsome => (by cases hsome), fun hle => absurd hle (Nat.not_le.2 hlong)⟩
  · rename_i hshort
    exact ⟨fun _ => Nat.not_lt.1 hshort, fun _ => rfl⟩

theorem exists_readInt_of_isText {text : String} (h : Terminal.intConstant.IsText text)
    (hlimit : (text.toList.filter isDigit).length ≤ Number.digitLimit) : ∃ n, Number.readInt 10 text = .ok n := by
  have hsome := (isSome_readInt?_iff h).2 hlimit
  unfold Number.readInt? at hsome
  cases hread : Number.readInt 10 text with
  | error e =>
    rw [hread] at hsome
    cases hsome
  | ok n => exact ⟨n, rfl⟩

/-- What holds of the digits of base 16 holds of every one. -/
private theorem forall_of_isHexDigit {P : Char → Prop}
    (h : ∀ n ∈ List.range' 48 10 ++ List.range' 65 6 ++ List.range' 97 6, P (Char.ofNat n)) {c : Char}
    (hc : isHexDigit c = true) : P c := by
  have hbounds : 48 ≤ c.toNat ∧ c.toNat ≤ 57 ∨ 97 ≤ c.toNat ∧ c.toNat ≤ 102 ∨ 65 ≤ c.toNat ∧ c.toNat ≤ 70 := by
    unfold isHexDigit Text.hexDigit? at hc
    split at hc
    · rename_i hdigit
      exact Or.inl (by simpa [isDigit, Char.le_def, UInt32.le_iff_toNat_le] using hdigit)
    · split at hc
      · rename_i hletter
        exact Or.inr (Or.inl (by simpa [Char.le_def, UInt32.le_iff_toNat_le] using hletter))
      · split at hc
        · rename_i hletter
          exact Or.inr (Or.inr (by simpa [Char.le_def, UInt32.le_iff_toNat_le] using hletter))
        · cases hc
  rw [← Char.ofNat_toNat c]
  refine h _ ?_
  rw [List.mem_append, List.mem_append, List.mem_range'_1, List.mem_range'_1, List.mem_range'_1]
  omega

/-- A hexadecimal integer can be read. -/
theorem exists_readInt_of_isText_hex {text : String} (h : Terminal.hexConstant.IsText text) :
    ∃ n, Number.readInt 16 text = .ok n := by
  obtain ⟨sign, negative, hsign, htext, -, hsplit⟩ := exists_sign text.toList
  obtain ⟨digits, hbody, hne, hdigits⟩ := exists_of_matchHex h
  rw [hbody] at htext hsplit
  have hvalues : ∀ c ∈ digits, IsPlain c ∧ (Number.digitIn? 16 c).isSome ∧ c ≠ '_' :=
    fun c hc => forall_of_isHexDigit (P := fun c => IsPlain c ∧ (Number.digitIn? 16 c).isSome ∧ c ≠ '_') (by decide)
      (hdigits c hc)
  have hplain : ∀ c ∈ text.toList, IsPlain c := by
    have hmark : ∀ c ∈ ['0', 'x'], IsPlain c :=
      List.forall_mem_cons.2 ⟨by decide, List.forall_mem_singleton.2 (by decide)⟩
    rw [htext]
    intro c hc
    rcases List.mem_append.1 hc with hc | hc
    · exact Number.isPlain_of_sign hsign c hc
    · rcases List.mem_append.1 (show c ∈ ['0', 'x'] ++ digits from hc) with hc | hc
      · exact hmark c hc
      · exact (hvalues c hc).1
  have hdrop : Number.dropBaseMark ('0' :: 'x' :: digits) = digits := by
    rw [Number.dropBaseMark, if_pos (Or.inl rfl)]
    rintro cs rfl
    exact (hvalues '_' List.mem_cons_self).2.2 rfl
  have hread : ∀ c ∈ digits, Number.digitIn? 16 c = some ((Number.digitIn? 16 c).getD 0) ∧ c ≠ '_' := by
    intro c hc
    obtain ⟨d, hd⟩ := Option.isSome_iff_exists.1 (hvalues c hc).2.1
    exact ⟨by rw [hd, Option.getD_some], (hvalues c hc).2.2⟩
  exact ⟨_, Number.readInt_of_digits hplain hsplit (by rw [if_pos rfl, hdrop]) hne hread fun h => by cases h⟩

/-! ### Reading numbers with a point or an exponent -/

/-- The digits at the front of a text are those before the first character that is neither a digit nor joins digits. -/
private theorem digitRun_append {digits rest : List Char} (hdigits : ∀ c ∈ digits, isDigit c = true)
    (hrest : ∀ c ∈ rest.head?, digitValue? c = none ∧ c ≠ '_') :
    Number.digitRun (digits ++ rest) = (digits.map fun c => c.toNat - 48, rest) := by
  induction digits with
  | nil =>
    cases rest with
    | nil => rfl
    | cons c rest =>
      rw [List.nil_append, Number.digitRun, (hrest c rfl).1]
      rfl
  | cons c digits ih =>
    have hvalue : digitValue? c = some (c.toNat - 48) := by
      have := (Number.digitIn?_of_isDigit (hdigits c List.mem_cons_self) 10).1
      rwa [Number.digitIn?, if_neg (by decide), Option.or_none] at this
    have hbehind : ∀ d ∈ (digits ++ rest).head?, d ≠ '_' := by
      intro d hd
      cases digits with
      | nil => exact (hrest d hd).2
      | cons d' digits =>
        obtain rfl : d' = d := by simpa using hd
        exact (Number.digitIn?_of_isDigit (hdigits d' (by simp)) 10).2
    rw [List.cons_append, Number.digitRun, hvalue]
    dsimp only
    split
    · exact absurd rfl (hbehind '_' (by rename_i heq; rw [heq]; rfl))
    · rw [ih fun d hd => hdigits d (List.mem_cons_of_mem _ hd)]
      rfl

private theorem IsExponent.isPlain {cs : List Char} (h : IsExponent cs) : ∀ c ∈ cs, IsPlain c := by
  intro c hc
  cases cs with
  | nil => cases hc
  | cons e cs =>
    obtain ⟨sign, negative, hsign, hcs, -, -⟩ := exists_sign cs
    rcases List.mem_cons.1 hc with rfl | hc
    · rcases h.head? c rfl with rfl | rfl <;> decide
    · rw [hcs] at hc
      rcases List.mem_append.1 hc with hc | hc
      · exact Number.isPlain_of_sign hsign c hc
      · exact Number.isPlain_of_isDigit ((forall_of_matchInt h.matchInt).2 c hc)

/-- What stands behind the digits of a number is read as an exponent. -/
theorem IsExponent.isSome {cs : List Char} (h : IsExponent cs) : (Number.exponent? cs).isSome = true := by
  cases cs with
  | nil => rfl
  | cons e cs =>
    obtain ⟨sign, negative, -, -, -, hsplit⟩ := exists_sign cs
    obtain ⟨hne, hdigits⟩ := forall_of_matchInt h.matchInt
    have hrun : Number.digitRun ((splitSign cs).2 ++ []) = _ := digitRun_append hdigits (by simp)
    rw [List.append_nil] at hrun
    unfold Number.exponent?
    dsimp only
    rw [if_pos (h.head? e rfl), hsplit]
    dsimp only
    rw [hrun]
    cases hbody : (splitSign cs).2 with
    | nil => exact absurd hbody hne
    | cons c digits => rfl

/-- A number with a point or an exponent can be read. -/
theorem exists_readDouble_of_isText {text : String} (h : Terminal.doubleConstant.IsText text) :
    ∃ d, Number.readDouble text = .ok d := by
  obtain ⟨sign, negative, hsign, htext, -, hsplit⟩ := exists_sign text.toList
  obtain ⟨whole, middle, behind, hbody, hwhole, hexponent, hmiddle⟩ := exists_of_matchDouble h
  rw [hbody] at htext hsplit
  have hmiddleChars : ∀ c ∈ middle, isDigit c = true ∨ c = '.' := by
    rcases hmiddle with ⟨rfl, -⟩ | ⟨fraction, rfl, hfraction, -⟩
    · simp
    · intro c hc
      exact (List.mem_cons.1 hc).symm.imp_left (hfraction c)
  have hplain : ∀ c ∈ text.toList, IsPlain c := by
    rw [htext]
    intro c hc
    simp only [List.mem_append] at hc
    rcases hc with hc | hc | hc | hc
    · exact Number.isPlain_of_sign hsign c hc
    · exact Number.isPlain_of_isDigit (hwhole c hc)
    · rcases hmiddleChars c hc with hc | rfl
      · exact Number.isPlain_of_isDigit hc
      · decide
    · exact hexponent.isPlain c hc
  obtain ⟨c, cs, hcons, hc⟩ : ∃ c cs, whole ++ (middle ++ behind) = c :: cs ∧ (isDigit c = true ∨ c = '.') := by
    cases whole with
    | cons c whole => exact ⟨c, _, rfl, Or.inl (hwhole c List.mem_cons_self)⟩
    | nil =>
      rcases hmiddle with ⟨-, hne⟩ | ⟨fraction, rfl, -, -⟩
      · exact absurd rfl hne
      · exact ⟨'.', _, rfl, Or.inr rfl⟩
  have hword : ∀ word ∈ ["inf", "infinity", "nan"], String.ofList (Number.lowered (c :: cs)) ≠ word := by
    have hfirst : c.toLower ≠ 'i' ∧ c.toLower ≠ 'n' := by
      rcases hc with hc | rfl
      · exact Number.forall_of_isDigit (P := fun c => c.toLower ≠ 'i' ∧ c.toLower ≠ 'n') (by decide) hc
      · decide
    intro word hword heq
    have hlist : c.toLower :: Number.lowered cs = word.toList := by
      rw [← heq, String.toList_ofList]
      rfl
    simp only [List.mem_cons, List.not_mem_nil, or_false] at hword
    rcases hword with rfl | rfl | rfl
    · exact hfirst.1 (List.cons.inj hlist).1
    · exact hfirst.1 (List.cons.inj hlist).1
    · exact hfirst.2 (List.cons.inj hlist).1
  have hbehind : ∀ c ∈ behind.head?, digitValue? c = none ∧ c ≠ '_' := by
    intro c hc
    rcases hexponent.head? c hc with rfl | rfl <;> decide
  obtain ⟨e, he⟩ := Option.isSome_iff_exists.1 hexponent.isSome
  have hread : ∃ d, Number.readDouble? text = some d := by
    unfold Number.readDouble?
    rw [Number.bareNumeral_of_isPlain hplain, hsplit]
    dsimp only
    rw [hcons, if_neg (by rintro (h | h) <;> exact hword _ (by simp) h), if_neg (hword _ (by simp)), ← hcons]
    rcases hmiddle with ⟨rfl, hne⟩ | ⟨fraction, rfl, hfraction, hne⟩
    · rw [List.nil_append, digitRun_append hwhole hbehind]
      dsimp only
      split
      · exact absurd (hexponent.head? '.' rfl) (by decide)
      · dsimp only
        rw [he, if_neg (by simpa using hne)]
        exact ⟨_, rfl⟩
    · have hpoint : ∀ c ∈ ('.' :: fraction ++ behind).head?, digitValue? c = none ∧ c ≠ '_' := by
        intro c hc
        obtain rfl : '.' = c := by simpa using hc
        decide
      rw [digitRun_append hwhole hpoint]
      show ∃ d, (if (whole.map fun c => c.toNat - 48).isEmpty = true ∧
          (Number.digitRun (fraction ++ behind)).1.isEmpty = true then none
        else (Number.exponent? (Number.digitRun (fraction ++ behind)).2).map _) = some d
      rw [digitRun_append hfraction hbehind, he, if_neg (by simpa using hne)]
      exact ⟨_, rfl⟩
  obtain ⟨d, hd⟩ := hread
  exact ⟨d, by rw [Number.readDouble, hd]⟩

end ThriftGateway.Idl
