import ThriftGateway.Idl.Parser

/-!
# What terminals match

How far a terminal reaches into a text does not depend on what stands behind a blank or the first character of a comment
(`match?_append`), and a terminal matches nothing that begins with a character that it cannot begin with
(`match?_eq_none`).  The terminals for numbers do not get into each other's way (`ne_of_matchHex`,
`matchDouble_of_matchInt`).
-/

namespace ThriftGateway.Idl

open Text (isDigit isHexDigit isNameStart isNamePart)

/-- Nothing, or a blank and more. -/
def AtBlank (rest : List Char) : Prop := ∀ c ∈ rest.head?, c = ' '

theorem atBlank_nil : AtBlank [] := by simp [AtBlank]

theorem atBlank_cons (cs : List Char) : AtBlank (' ' :: cs) := by simp [AtBlank]

/-- The characters that blanks and comments begin with. -/
def gapMarks : List Char := [' ', '\t', '\x0c', '\r', '\n', '/', '#']

/-- Nothing, or a character that blanks or comments begin with and more. -/
def AtGap (rest : List Char) : Prop := ∀ c ∈ rest.head?, c ∈ gapMarks

theorem atGap_cons {c : Char} (hc : c ∈ gapMarks) (cs : List Char) : AtGap (c :: cs) := by
  rintro d hd
  obtain rfl : c = d := by simpa using hd
  exact hc

theorem AtBlank.atGap {rest : List Char} (h : AtBlank rest) : AtGap rest := by
  intro c hc
  rw [h c hc]
  exact List.mem_cons_self

private theorem AtGap.ne {c : Char} {cs : List Char} (h : AtGap (c :: cs)) {d : Char} (hd : d ∉ gapMarks) : c ≠ d := by
  rintro rfl
  exact hd (h c rfl)

/-! ### How far terminals reach -/

theorem nameTail_dot (d : Char) (cs : List Char) :
    nameTail ('.' :: d :: cs) = if isNameStart d then nameTail cs + 2 else 0 := by
  rw [nameTail]

theorem nameTail_of_ne_dot {c : Char} (h : c ≠ '.') (cs : List Char) :
    nameTail (c :: cs) = if isNamePart c then nameTail cs + 1 else 0 := by
  rw [nameTail]
  rintro d cs' rfl
  exact absurd rfl h

private theorem drop_spanLength_append (p : Char → Bool) (cs rest : List Char) :
    (cs ++ rest).drop (spanLength p cs) = cs.drop (spanLength p cs) ++ rest :=
  List.drop_append_of_le_length (List.takeWhile_prefix p).length_le

private theorem find?_eq_of_forall {α : Type} {p q : α → Bool} {xs : List α} (h : ∀ x ∈ xs, p x = q x) :
    xs.find? p = xs.find? q := by
  induction xs with
  | nil => rfl
  | cons x xs ih =>
    rw [List.find?_cons, List.find?_cons, h x List.mem_cons_self, ih fun y hy => h y (List.mem_cons_of_mem _ hy)]

section Reach

variable {rest : List Char} (h : AtGap rest)

include h

theorem takeWhile_append {p : Char → Bool} (hp : gapMarks.any p = false) (cs : List Char) :
    (cs ++ rest).takeWhile p = cs.takeWhile p := by
  induction cs with
  | nil =>
    cases rest with
    | nil => rfl
    | cons c rest => simp [List.any_eq_false.1 hp c (h c rfl)]
  | cons c cs ih =>
    rw [List.cons_append, List.takeWhile_cons, List.takeWhile_cons, ih]

private theorem spanLength_append {p : Char → Bool} (hp : gapMarks.any p = false) (cs : List Char) :
    spanLength p (cs ++ rest) = spanLength p cs := by
  unfold spanLength
  rw [takeWhile_append h hp]

private theorem splitSign_append (cs : List Char) :
    splitSign (cs ++ rest) = ((splitSign cs).1, (splitSign cs).2 ++ rest) := by
  cases cs with
  | nil =>
    cases rest with
    | nil => rfl
    | cons c rest => simp [splitSign, h.ne (d := '+') (by decide), h.ne (d := '-') (by decide)]
  | cons c cs =>
    by_cases hp : c = '+'
    · subst hp; rfl
    · by_cases hm : c = '-'
      · subst hm; rfl
      · simp [splitSign, hp, hm]

private theorem matchInt_append (cs : List Char) : matchInt (cs ++ rest) = matchInt cs := by
  unfold matchInt
  rw [splitSign_append h]
  simp only [spanLength_append h (show gapMarks.any isDigit = false by decide)]

private theorem matchHex_append (cs : List Char) : matchHex (cs ++ rest) = matchHex cs := by
  unfold matchHex
  rw [splitSign_append h]
  dsimp only
  generalize (splitSign cs).2 = cs'
  match cs' with
  | [] =>
    cases rest with
    | nil => rfl
    | cons c rest => simp [h.ne (d := '0') (by decide)]
  | [c] =>
    cases rest with
    | nil => rfl
    | cons d rest => simp [h.ne (d := 'x') (by decide)]
  | c :: d :: cs' =>
    simp only [List.cons_append]
    by_cases hc : c = '0'
    · by_cases hd : d = 'x'
      · subst hc hd
        simp only [spanLength_append h (show gapMarks.any isHexDigit = false by decide)]
      · simp [hd]
    · simp [hc]

private theorem matchExponent_append (cs : List Char) : matchExponent (cs ++ rest) = matchExponent cs := by
  cases cs with
  | nil =>
    cases rest with
    | nil => rfl
    | cons c rest => simp [matchExponent, h.ne (d := 'e') (by decide), h.ne (d := 'E') (by decide)]
  | cons c cs =>
    by_cases he : c = 'e'
    · subst he
      simp only [List.cons_append, matchExponent, matchInt_append h]
    · by_cases hE : c = 'E'
      · subst hE
        simp only [List.cons_append, matchExponent, matchInt_append h]
      · simp [matchExponent, he, hE]

private theorem matchPointed_append (cs : List Char) : matchPointed (cs ++ rest) = matchPointed cs := by
  have hdigit : gapMarks.any isDigit = false := by decide
  unfold matchPointed
  dsimp only
  rw [spanLength_append h hdigit, drop_spanLength_append]
  generalize cs.drop (spanLength isDigit cs) = cs'
  cases cs' with
  | nil =>
    cases rest with
    | nil => rfl
    | cons c rest => simp [h.ne (d := '.') (by decide)]
  | cons c cs' =>
    by_cases hc : c = '.'
    · subst hc
      simp only [List.cons_append, spanLength_append h hdigit, drop_spanLength_append, matchExponent_append h]
    · simp [hc]

private theorem matchDouble_append (cs : List Char) : matchDouble (cs ++ rest) = matchDouble cs := by
  unfold matchDouble
  rw [splitSign_append h]
  simp only [spanLength_append h (show gapMarks.any isDigit = false by decide), drop_spanLength_append,
    matchExponent_append h, matchPointed_append h]

private theorem nameTail_append (cs : List Char) : nameTail (cs ++ rest) = nameTail cs := by
  have hstart : gapMarks.any isNameStart = false := by decide
  have hpart : gapMarks.any isNamePart = false := by decide
  have hrest : nameTail rest = 0 := by
    cases rest with
    | nil => rfl
    | cons c rest => rw [nameTail_of_ne_dot (h.ne (by decide)), if_neg (List.any_eq_false.1 hpart c (h c rfl))]
  induction cs using nameTail.induct with
  | case1 => exact hrest
  | case2 d cs hd ih => rw [List.cons_append, List.cons_append, nameTail_dot, nameTail_dot, if_pos hd, if_pos hd, ih]
  | case3 d cs hd => rw [List.cons_append, List.cons_append, nameTail_dot, nameTail_dot, if_neg hd, if_neg hd]
  | case4 c cs hne hc ih =>
    have hdot : c ≠ '.' := by
      rintro rfl
      exact absurd hc (by decide)
    rw [List.cons_append, nameTail_of_ne_dot hdot, nameTail_of_ne_dot hdot, ih]
  | case5 c cs hne hc =>
    by_cases hdot : c = '.'
    · subst hdot
      cases cs with
      | nil =>
        cases rest with
        | nil => rfl
        | cons d rest =>
          rw [List.cons_append, List.nil_append, nameTail_dot, if_neg (List.any_eq_false.1 hstart d (h d rfl))]
          rfl
      | cons d cs => exact absurd rfl (hne d cs rfl)
    · rw [List.cons_append, nameTail_of_ne_dot hdot, nameTail_of_ne_dot hdot, if_neg hc, if_neg hc]

private theorem matchIdentifier_append (cs : List Char) : matchIdentifier (cs ++ rest) = matchIdentifier cs := by
  cases cs with
  | nil =>
    have hstart : gapMarks.any isNameStart = false := by decide
    cases rest with
    | nil => rfl
    | cons c rest => simp [matchIdentifier, List.any_eq_false.1 hstart c (h c rfl)]
  | cons c cs =>
    simp only [List.cons_append, matchIdentifier, nameTail_append h]

/-- A text without blanks and marks of comments is no longer than what stands before the first of them. -/
private theorem isPrefixOf_append {xs : List Char} (hx : xs.any gapMarks.contains = false) (cs : List Char) :
    xs.isPrefixOf (cs ++ rest) = xs.isPrefixOf cs := by
  induction xs generalizing cs with
  | nil => simp
  | cons x xs ih =>
    rw [List.any_cons, Bool.or_eq_false_iff] at hx
    cases cs with
    | nil =>
      cases rest with
      | nil => rfl
      | cons c rest => simp [List.isPrefixOf, (h.ne (by simpa using hx.1)).symm]
    | cons c cs => simp only [List.cons_append, List.isPrefixOf, ih hx.2]

/-- A base type may end before such characters. -/
def endsBaseType : List Char → Bool
  | [] => true
  | c :: _ => !(isNamePart c || c = '.')

theorem AtGap.endsBaseType : endsBaseType rest = true := by
  have hmarks : gapMarks.all (fun c => !(isNamePart c || c = '.')) = true := by decide
  cases rest with
  | nil => rfl
  | cons c rest => exact List.all_eq_true.1 hmarks c (h c rfl)

private theorem matchBaseType_append (cs : List Char) : matchBaseType (cs ++ rest) = matchBaseType cs := by
  have hmarks : ∀ name ∈ baseTypeNames, name.toList.any gapMarks.contains = false := by decide
  have hname : ∀ name ∈ baseTypeNames,
      (name.toList.isPrefixOf (cs ++ rest) && endsBaseType ((cs ++ rest).drop name.length)) =
        (name.toList.isPrefixOf cs && endsBaseType (cs.drop name.length)) := by
    intro name hmem
    rw [isPrefixOf_append h (hmarks name hmem)]
    cases hprefix : name.toList.isPrefixOf cs with
    | false => rfl
    | true =>
      obtain ⟨behind, rfl⟩ := List.isPrefixOf_iff_prefix.1 hprefix
      have hlength : name.length = name.toList.length := rfl
      rw [hlength, List.append_assoc, List.drop_left, List.drop_left]
      cases behind with
      | cons c behind => rfl
      | nil => exact congrArg _ h.endsBaseType
  exact congrArg (Option.map String.length) (find?_eq_of_forall hname)

private theorem spelling_append {t : Terminal} {s : String} (ht : t.spelling? = some s) (cs : List Char) :
    s.toList.isPrefixOf (cs ++ rest) = s.toList.isPrefixOf cs := by
  have hmarks : ∀ t : Terminal, ∀ s ∈ t.spelling?, s.toList.any gapMarks.contains = false := by
    intro t
    cases t <;> decide
  exact isPrefixOf_append h (hmarks t s ht) cs

/-- What comes behind a piece up to a blank or a comment does not matter for how far a terminal reaches, except into
literals, comments and blanks. -/
theorem match?_append {t : Terminal} (ht : t ∉ [.lineComment, .literal, .blockComment, .blank]) (cs : List Char) :
    t.match? (cs ++ rest) = t.match? cs := by
  have hspelled : ∀ {s : String}, t.spelling? = some s →
      (t.spelling?.bind fun s => if s.toList.isPrefixOf (cs ++ rest) then some s.length else none) =
        t.spelling?.bind fun s => if s.toList.isPrefixOf cs then some s.length else none := by
    intro s hs
    rw [hs, Option.bind_some, Option.bind_some, spelling_append h hs]
  cases t with
  | hexConstant => exact matchHex_append h cs
  | doubleConstant => exact matchDouble_append h cs
  | baseType => exact matchBaseType_append h cs
  | identifier => exact matchIdentifier_append h cs
  | intConstant => exact matchInt_append h cs
  | lineComment | literal | blockComment | blank => simp at ht
  | stop => rfl
  | _ => exact hspelled rfl

end Reach

/-! ### Where terminals can begin -/

/-- A character that a terminal can begin with. -/
def Terminal.opensWith : Terminal → Char → Bool
  | .hexConstant, c | .intConstant, c => isDigit c || c = '+' || c = '-'
  | .doubleConstant, c => isDigit c || c = '+' || c = '-' || c = '.'
  | .baseType, c | .identifier, c => isNameStart c
  | .lineComment, c => c = '/' || c = '#'
  | .blockComment, c => c = '/'
  | .literal, c => c = '"' || c = '\''
  | .blank, c => isBlank c
  | t, c => (t.spelling?.bind fun s => s.toList.head?) = some c

theorem splitSign_of_ne {c : Char} (hp : c ≠ '+') (hm : c ≠ '-') (cs : List Char) :
    splitSign (c :: cs) = (0, c :: cs) := by
  simp [splitSign, hp, hm]

private theorem matchHex_eq_none {c : Char} (hc : Terminal.hexConstant.opensWith c = false) (cs : List Char) :
    matchHex (c :: cs) = none := by
  simp only [Terminal.opensWith, Bool.or_eq_false_iff, decide_eq_false_iff_not] at hc
  unfold matchHex
  rw [splitSign_of_ne hc.1.2 hc.2]
  dsimp only
  split
  · rename_i heq
    cases heq
    exact absurd hc.1.1 (by decide)
  · rfl

private theorem matchInt_eq_none {c : Char} (hc : Terminal.intConstant.opensWith c = false) (cs : List Char) :
    matchInt (c :: cs) = none := by
  simp only [Terminal.opensWith, Bool.or_eq_false_iff, decide_eq_false_iff_not] at hc
  unfold matchInt
  rw [splitSign_of_ne hc.1.2 hc.2]
  simp [spanLength, hc.1.1]

private theorem matchDouble_eq_none {c : Char} (hc : Terminal.doubleConstant.opensWith c = false) (cs : List Char) :
    matchDouble (c :: cs) = none := by
  simp only [Terminal.opensWith, Bool.or_eq_false_iff, decide_eq_false_iff_not] at hc
  unfold matchDouble
  rw [splitSign_of_ne hc.1.1.2 hc.1.2]
  simp [matchPointed, spanLength, hc.1.1.1, hc.2]

/-- A text that has another one at the front begins with the same character. -/
private theorem head?_of_isPrefixOf {xs : List Char} {c : Char} {cs : List Char} (hx : xs ≠ [])
    (h : xs.isPrefixOf (c :: cs) = true) : xs.head? = some c := by
  obtain ⟨behind, hbehind⟩ := List.isPrefixOf_iff_prefix.1 h
  cases xs with
  | nil => exact absurd rfl hx
  | cons x xs =>
    cases hbehind
    rfl

private theorem matchBaseType_eq_none {c : Char} (hc : Terminal.baseType.opensWith c = false) (cs : List Char) :
    matchBaseType (c :: cs) = none := by
  have hnames : ∀ name ∈ baseTypeNames, name.toList ≠ [] ∧ name.toList.head?.all isNameStart = true := by decide
  unfold matchBaseType
  rw [Option.map_eq_none_iff, List.find?_eq_none]
  intro name hmem hname
  rw [Bool.and_eq_true] at hname
  obtain ⟨hne, hstart⟩ := hnames name hmem
  have hc' : isNameStart c = true := (Option.all_eq_true _ _).1 hstart c (head?_of_isPrefixOf hne hname.1)
  rw [show isNameStart c = false from hc] at hc'
  cases hc'

private theorem spelled_eq_none {t : Terminal} {s : String} (ht : t.spelling? = some s) (hs : s.toList ≠ []) {c : Char}
    (hc : decide ((t.spelling?.bind fun s => s.toList.head?) = some c) = false) (cs : List Char) :
    (t.spelling?.bind fun s => if s.toList.isPrefixOf (c :: cs) then some s.length else none) = none := by
  rw [ht] at hc ⊢
  refine if_neg fun hprefix => ?_
  exact absurd (head?_of_isPrefixOf hs hprefix) (of_decide_eq_false hc)

/-- A terminal does not match a text that begins with another character. -/
theorem match?_eq_none {t : Terminal} {c : Char} (hc : t.opensWith c = false) (cs : List Char) :
    t.match? (c :: cs) = none := by
  cases t with
  | hexConstant => exact matchHex_eq_none hc cs
  | doubleConstant => exact matchDouble_eq_none hc cs
  | baseType => exact matchBaseType_eq_none hc cs
  | identifier => exact if_neg (by rw [show isNameStart c = false from hc]; simp)
  | lineComment =>
    simp only [Terminal.opensWith, Bool.or_eq_false_iff, decide_eq_false_iff_not] at hc
    simp [Terminal.match?, matchLineComment, hc.1, hc.2]
  | literal =>
    simp only [Terminal.opensWith, Bool.or_eq_false_iff, decide_eq_false_iff_not] at hc
    simp [Terminal.match?, matchLiteral, hc.1, hc.2]
  | blockComment =>
    simp only [Terminal.opensWith, decide_eq_false_iff_not] at hc
    simp [Terminal.match?, matchBlockComment, hc]
  | blank =>
    have hc : isBlank c = false := hc
    simp [Terminal.match?, matchBlank, spanLength, hc]
  | intConstant => exact matchInt_eq_none hc cs
  | stop => rfl
  | _ => exact spelled_eq_none rfl (by decide) hc cs

/-! ### Numbers -/

theorem splitSign_length (cs : List Char) : (splitSign cs).1 + (splitSign cs).2.length = cs.length := by
  unfold splitSign
  split <;> simp [Nat.add_comm]

/-- A hexadecimal number is no other number. -/
theorem ne_of_matchHex {cs : List Char} (h : matchHex cs ≠ none) :
    matchDouble cs = none ∧ matchInt cs ≠ some cs.length := by
  have hlength := splitSign_length cs
  unfold matchHex at h
  unfold matchDouble matchInt
  dsimp only at h ⊢
  generalize (splitSign cs).1 = n at *
  generalize (splitSign cs).2 = behind at *
  split at h
  · rename_i _ cs'
    have hone : spanLength isDigit ('0' :: 'x' :: cs') = 1 := by
      unfold spanLength
      rw [List.takeWhile_cons_of_pos (by decide), List.takeWhile_cons_of_neg (by decide)]
      rfl
    constructor
    · simp [matchPointed, hone, matchExponent]
    · rw [hone, if_neg Nat.one_ne_zero, ne_eq, Option.some.injEq]
      simp only [List.length_cons] at hlength
      omega
  · exact absurd rfl h

/-- A whole number has nothing behind its digits. -/
theorem matchDouble_of_matchInt {cs : List Char} (h : matchInt cs = some cs.length) : matchDouble cs = none := by
  have hlength := splitSign_length cs
  unfold matchInt at h
  unfold matchDouble
  dsimp only at h ⊢
  generalize (splitSign cs).1 = n at *
  generalize (splitSign cs).2 = behind at *
  split at h
  · cases h
  · have hdrop : behind.drop (spanLength isDigit behind) = [] := by
      have hn := Option.some.inj h
      rw [List.drop_eq_nil_iff]
      omega
    simp [matchPointed, hdrop, matchExponent]

/-- A number begins with a digit, a sign or a point. -/
theorem exists_of_matchNumber {k : Terminal} (hk : k ∈ [Terminal.hexConstant, .doubleConstant, .intConstant])
    {cs : List Char} (h : k.match? cs ≠ none) :
    ∃ c cs', cs = c :: cs' ∧ Terminal.doubleConstant.opensWith c = true := by
  cases cs with
  | nil =>
    refine absurd ?_ h
    simp only [List.mem_cons, List.not_mem_nil, or_false] at hk
    rcases hk with rfl | rfl | rfl <;> rfl
  | cons c cs =>
    refine ⟨c, cs, rfl, ?_⟩
    cases hc : Terminal.doubleConstant.opensWith c with
    | true => rfl
    | false =>
      refine absurd (match?_eq_none ?_ cs) h
      simp only [List.mem_cons, List.not_mem_nil, or_false] at hk
      rcases hk with rfl | rfl | rfl
      · simp only [Terminal.opensWith, Bool.or_eq_false_iff] at hc ⊢
        exact hc.1
      · exact hc
      · simp only [Terminal.opensWith, Bool.or_eq_false_iff] at hc ⊢
        exact hc.1

section Characters

private theorem notMem_takeWhile {p : Char → Bool} (hp : p '\n' = false) (cs : List Char) : '\n' ∉ cs.takeWhile p := by
  intro h
  rw [List.all_eq_true.1 (List.all_takeWhile (p := p) (l := cs)) _ h] at hp
  cases hp

private theorem notMem_take_span {p : Char → Bool} (hp : p '\n' = false) (cs : List Char) :
    '\n' ∉ cs.take (spanLength p cs) := by
  have htake : cs.take (spanLength p cs) = cs.takeWhile p := (List.prefix_iff_eq_take.1 (List.takeWhile_prefix p)).symm
  rw [htake]
  exact notMem_takeWhile hp cs

private theorem notMem_take_sign {cs : List Char} {n : Nat} (h : '\n' ∉ (splitSign cs).2.take n) :
    '\n' ∉ cs.take ((splitSign cs).1 + n) := by
  unfold splitSign at h ⊢
  split <;> simpa [Nat.add_comm 1 n] using h

private theorem notMem_take_add {cs : List Char} {m n : Nat} (hm : '\n' ∉ cs.take m) (hn : '\n' ∉ (cs.drop m).take n) :
    '\n' ∉ cs.take (m + n) := by
  rw [List.take_add, List.mem_append, not_or]
  exact ⟨hm, hn⟩

private theorem notMem_matchInt {cs : List Char} {n : Nat} (h : matchInt cs = some n) : '\n' ∉ cs.take n := by
  unfold matchInt at h
  dsimp only at h
  split at h
  · cases h
  · obtain rfl := Option.some.inj h
    exact notMem_take_sign (notMem_take_span (by decide) _)

private theorem notMem_matchHex {cs : List Char} {n : Nat} (h : matchHex cs = some n) : '\n' ∉ cs.take n := by
  unfold matchHex at h
  dsimp only at h
  split at h
  · rename_i cs' heq
    split at h
    · cases h
    · obtain rfl := Option.some.inj h
      rw [Nat.add_assoc]
      refine notMem_take_sign ?_
      rw [heq]
      exact notMem_take_add (by simp) (notMem_take_span (by decide) _)
  · cases h

private theorem notMem_matchExponent {cs : List Char} {n : Nat} (h : matchExponent cs = some n) : '\n' ∉ cs.take n := by
  have hletter : ∀ {c : Char} {cs : List Char}, c ≠ '\n' → (matchInt cs).map (· + 1) = some n →
      '\n' ∉ (c :: cs).take n := by
    intro c cs hc h
    obtain ⟨m, hm, rfl⟩ := Option.map_eq_some_iff.1 h
    rw [List.take_succ_cons, List.mem_cons, not_or]
    exact ⟨hc.symm, notMem_matchInt hm⟩
  unfold matchExponent at h
  split at h
  · exact hletter (by decide) h
  · exact hletter (by decide) h
  · cases h

private theorem notMem_exponent (cs : List Char) : '\n' ∉ cs.take ((matchExponent cs).getD 0) := by
  cases h : matchExponent cs with
  | none => simp
  | some n => exact notMem_matchExponent h

private theorem notMem_matchPointed {cs : List Char} {n : Nat} (h : matchPointed cs = some n) : '\n' ∉ cs.take n := by
  unfold matchPointed at h
  dsimp only at h
  split at h
  · rename_i cs' heq
    split at h
    · cases h
    · obtain rfl := Option.some.inj h
      rw [Nat.add_assoc, Nat.add_assoc]
      refine notMem_take_add (notMem_take_span (by decide) _) ?_
      rw [heq]
      refine notMem_take_add (m := 1) (by simp) ?_
      exact notMem_take_add (notMem_take_span (by decide) _) (notMem_exponent _)
  · cases h

private theorem notMem_matchDouble {cs : List Char} {n : Nat} (h : matchDouble cs = some n) : '\n' ∉ cs.take n := by
  unfold matchDouble at h
  dsimp only at h
  obtain ⟨m, hm, rfl⟩ := Option.map_eq_some_iff.1 h
  refine notMem_take_sign ?_
  generalize (splitSign cs).2 = behind at *
  rcases Option.or_eq_some_iff.1 hm with hwhole | ⟨-, hpointed⟩
  · split at hwhole
    · cases hwhole
    · obtain ⟨e, he, rfl⟩ := Option.map_eq_some_iff.1 hwhole
      exact notMem_take_add (notMem_take_span (by decide) _) (notMem_matchExponent he)
  · exact notMem_matchPointed hpointed

/-- A number stands on one line. -/
theorem notMem_of_matchNumber {k : Terminal} (hk : k ∈ [Terminal.hexConstant, .doubleConstant, .intConstant])
    {cs : List Char} (h : k.match? cs = some cs.length) : '\n' ∉ cs := by
  simp only [List.mem_cons, List.not_mem_nil, or_false] at hk
  rw [← List.take_length (l := cs)]
  rcases hk with rfl | rfl | rfl
  · exact notMem_matchHex h
  · exact notMem_matchDouble h
  · exact notMem_matchInt h

end Characters

/-! ### Identifiers -/

/-- An identifier reaches over name characters and dots. -/
private theorem forall_mem_take_nameTail (cs : List Char) :
    ∀ c ∈ cs.take (nameTail cs), (isNamePart c || c = '.') = true := by
  induction cs using nameTail.induct with
  | case1 => simp
  | case2 d cs hd ih =>
    rw [nameTail_dot, if_pos hd]
    simp only [List.take_succ_cons, List.mem_cons, forall_eq_or_imp]
    exact ⟨by decide, by simp [isNamePart, hd], ih⟩
  | case3 d cs hd =>
    rw [nameTail_dot, if_neg hd]
    simp
  | case4 c cs hne hc ih =>
    have hdot : c ≠ '.' := by
      rintro rfl
      exact absurd hc (by decide)
    rw [nameTail_of_ne_dot hdot, if_pos hc]
    simp only [List.take_succ_cons, List.mem_cons, forall_eq_or_imp]
    exact ⟨by simp [hc], ih⟩
  | case5 c cs hne hc =>
    have hzero : nameTail (c :: cs) = 0 := by
      rw [nameTail, if_neg hc]
      exact hne
    rw [hzero]
    simp

theorem forall_mem_of_matchIdentifier {cs : List Char} (h : matchIdentifier cs = some cs.length) :
    ∃ c cs', cs = c :: cs' ∧ isNameStart c = true ∧ ∀ d ∈ cs', (isNamePart d || d = '.') = true := by
  cases cs with
  | nil => cases h
  | cons c cs =>
    rw [matchIdentifier] at h
    split at h
    · rename_i hc
      refine ⟨c, cs, rfl, hc, ?_⟩
      have htail : nameTail cs = cs.length := by
        have hn := Option.some.inj h
        rw [List.length_cons] at hn
        omega
      have hall := forall_mem_take_nameTail cs
      rw [htail, List.take_length] at hall
      exact hall
    · cases h

end ThriftGateway.Idl
