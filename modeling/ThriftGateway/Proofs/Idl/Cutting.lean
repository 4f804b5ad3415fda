import ThriftGateway.Proofs.Idl.Matching
import ThriftGateway.Proofs.Idl.Prospects

/-!
# Cutting tokens that blanks separate

`Written` says which texts are written for a terminal.  Wherever the terminal is accepted and a blank or the end of the
text follows, such a text is cut in full and for this terminal (`cut_written`): no terminal that is tried before its own
matches it, except that a word is read as an identifier first and then found among the words.
-/

namespace ThriftGateway.Idl

open Text (isDigit isNameStart isNamePart)

/-! ### Pieces of text -/

/-- A name that is no word of the grammar and no base type. -/
structure IsIdentifier (s : String) : Prop where
  whole : matchIdentifier s.toList = some s.toList.length
  notKeyword : ∀ k : Terminal, k.isKeyword = true → k.spelling? ≠ some s
  notBase : s ∉ baseTypeNames

instance (s : String) : Decidable (IsIdentifier s) :=
  decidable_of_iff
    (matchIdentifier s.toList = some s.toList.length ∧
      (∀ k ∈ Terminal.all ++ [Terminal.stop], k.isKeyword = true → k.spelling? ≠ some s) ∧ s ∉ baseTypeNames)
    ⟨fun h => ⟨h.1, fun k => h.2.1 k (mem_terminals k), h.2.2⟩, fun h =>
      ⟨h.whole, fun k _ => h.notKeyword k, h.notBase⟩⟩

/-- A name that is no base type is not read as one. -/
private theorem IsIdentifier.matchBaseType {s : String} (h : IsIdentifier s) : matchBaseType s.toList = none := by
  obtain ⟨c, cs, hcs, hc, hall⟩ := forall_mem_of_matchIdentifier h.whole
  have hparts : ∀ d ∈ s.toList, (isNamePart d || d = '.') = true := by
    rw [hcs]
    intro d hd
    rcases List.mem_cons.1 hd with rfl | hd
    · simp [isNamePart, hc]
    · exact hall d hd
  unfold Idl.matchBaseType
  rw [Option.map_eq_none_iff, List.find?_eq_none]
  intro name hmem hname
  rw [Bool.and_eq_true] at hname
  obtain ⟨behind, hbehind⟩ := List.isPrefixOf_iff_prefix.1 hname.1
  have hdrop : s.toList.drop name.length = behind := by
    rw [← hbehind]
    exact List.drop_left
  rw [hdrop] at hname
  cases behind with
  | nil =>
    rw [List.append_nil] at hbehind
    exact h.notBase (String.toList_inj.1 hbehind ▸ hmem)
  | cons d behind =>
    have hend : (!(isNamePart d || d = '.')) = true := hname.2
    rw [hparts d (hbehind ▸ by simp)] at hend
    cases hend

/-- The texts that are written for a terminal. -/
inductive Written : Terminal → List Char → Prop
  | number {k : Terminal} {cs : List Char} : k ∈ [.hexConstant, .doubleConstant, .intConstant] →
      k.match? cs = some cs.length → Written k cs
  | base {name : String} : name ∈ baseTypeNames → Written .baseType name.toList
  | identifier {name : String} : IsIdentifier name → Written .identifier name.toList
  | quoted {q : Char} {cs : List Char} : q ∈ ['"', '\''] → q ∉ cs → Written .literal (q :: (cs ++ [q]))
  | spelled {k : Terminal} {s : String} : k.spelling? = some s → Written k s.toList

private theorem matchQuoted_append {q : Char} {cs : List Char} (h : q ∉ cs) (rest : List Char) :
    matchQuoted q (cs ++ [q] ++ rest) = some (cs.length + 2) := by
  have hspan : spanLength (· ≠ q) (cs ++ [q] ++ rest) = cs.length := by
    unfold spanLength
    rw [List.append_assoc, List.takeWhile_append_of_pos (by simpa using fun c hc => ne_of_mem_of_not_mem hc h)]
    simp
  unfold matchQuoted
  rw [hspan]
  simp

theorem match?_spelled {k : Terminal} {s : String} (h : k.spelling? = some s) (cs : List Char) :
    k.match? cs = if s.toList.isPrefixOf cs then some s.length else none := by
  cases k <;> cases h <;> rfl

/-- A piece of text is read in full. -/
theorem Written.match? {k : Terminal} {cs rest : List Char} (h : Written k cs) (hrest : AtBlank rest) :
    k.match? (cs ++ rest) = some cs.length := by
  cases h with
  | number hk hmatch =>
    rw [match?_append hrest.atGap (by revert hk; cases k <;> decide), hmatch]
  | base hname =>
    have hall : ∀ name ∈ baseTypeNames, Idl.matchBaseType name.toList = some name.toList.length := by decide
    rw [match?_append hrest.atGap (by decide)]
    exact hall _ hname
  | identifier hname => rw [match?_append hrest.atGap (by decide), Terminal.match?, hname.whole]
  | quoted hq hcs =>
    simp only [List.mem_cons, List.not_mem_nil, or_false] at hq
    rcases hq with rfl | rfl <;> simpa [Terminal.match?, matchLiteral] using matchQuoted_append hcs rest
  | spelled hs =>
    rw [match?_spelled hs, if_pos (by simp)]
    rfl

/-! ### Which terminal is found first -/

/-- Numbers begin with characters that nothing else begins with. -/
private theorem opensWith_eq_false_of_number {c : Char} (hc : Terminal.doubleConstant.opensWith c = true) {t : Terminal}
    (ht : t ∈ [Terminal.baseType, .identifier, .lineComment, .literal, .blockComment, .blank]) :
    t.opensWith c = false := by
  have hcases : (48 ≤ c.toNat ∧ c.toNat ≤ 57) ∨ c = '+' ∨ c = '-' ∨ c = '.' := by
    simpa [Terminal.opensWith, isDigit, Char.le_def, UInt32.le_iff_toNat_le, or_assoc] using hc
  rcases hcases with hdigit | hsign
  · have hall : ∀ n ∈ List.range' 48 10,
        ∀ t ∈ [Terminal.baseType, .identifier, .lineComment, .literal, .blockComment, .blank],
          t.opensWith (Char.ofNat n) = false := by decide
    rw [← Char.ofNat_toNat c]
    exact hall c.toNat (by rw [List.mem_range'_1]; omega) t ht
  · revert ht t
    rcases hsign with rfl | rfl | rfl <;> decide

private theorem opensWith_eq_false_of_name {c : Char} (hc : isNameStart c = true) :
    Terminal.doubleConstant.opensWith c = false := by
  cases h : Terminal.doubleConstant.opensWith c with
  | false => rfl
  | true =>
    have hname : isNameStart c = false := opensWith_eq_false_of_number h (t := .identifier) (by decide)
    rw [hc] at hname
    cases hname

/-- A double can begin with whatever a number begins with. -/
private theorem opensWith_eq_false_of_double {c : Char} (h : Terminal.doubleConstant.opensWith c = false) :
    Terminal.hexConstant.opensWith c = false := by
  simp only [Terminal.opensWith, Bool.or_eq_false_iff] at h ⊢
  exact h.1

private theorem mem_all {t : Terminal} (h : t ≠ .stop) : t ∈ Terminal.all := by
  have ht := mem_terminals t
  simp only [List.mem_append, List.mem_singleton] at ht
  exact ht.resolve_right h

private theorem number_le_stop (t : Terminal) : t.number ≤ Terminal.stop.number := by
  cases t <;> decide

/-- Before any terminal there are only those that characters stand for. -/
theorem mem_all_of_lt {t k : Terminal} (h : t.number < k.number) : t ∈ Terminal.all := by
  refine mem_all ?_
  rintro rfl
  exact absurd h (Nat.not_lt.2 (number_le_stop k))

/-- No terminal before blanks begins with one. -/
private theorem opensWith_eq_false_of_blank {c : Char} (hc : isBlank c = true) {t : Terminal}
    (ht : t.number < Terminal.blank.number) : t.opensWith c = false := by
  have hbefore : ∀ t ∈ Terminal.all, t.number < Terminal.blank.number →
      [' ', '\t', '\x0c', '\r', '\n'].any t.opensWith = false := by decide
  have hmem : c ∈ [' ', '\t', '\x0c', '\r', '\n'] := by simpa [isBlank, or_assoc] using hc
  exact eq_false_of_ne_true (List.any_eq_false.1 (hbefore t (mem_all_of_lt ht) ht) c hmem)

/-- The first characters of words and marks tell them from literals, comments and blanks, and in full they are not what
earlier terminals stand for. -/
private theorem spelled_meet : ∀ k ∈ Terminal.all, ∀ s ∈ k.spelling?, ∀ t ∈ Terminal.all, t.number < k.number →
    (t = .identifier → k.isKeyword = false) →
    s.toList.head?.any (fun c => !t.opensWith c) = true ∨
      t ∉ [Terminal.lineComment, .literal, .blockComment, .blank] ∧ t.match? s.toList = none := by
  decide +kernel

/-- A number is not read as any terminal that is tried before its own. -/
private theorem match?_of_number {k : Terminal} (hk : k ∈ [Terminal.hexConstant, .doubleConstant, .intConstant])
    {cs : List Char} (hmatch : k.match? cs = some cs.length) {t : Terminal} (hlt : t.number < k.number) :
    (∃ c ∈ cs.head?, t.opensWith c = false) ∨
      t ∉ [Terminal.lineComment, .literal, .blockComment, .blank] ∧ t.match? cs = none := by
  obtain ⟨c, cs', hcs, hc⟩ := exists_of_matchNumber hk (show k.match? cs ≠ none by simp [hmatch])
  have hhex : matchHex cs ≠ none → k = .hexConstant := by
    intro hhex
    obtain ⟨hdouble, hint⟩ := ne_of_matchHex hhex
    simp only [List.mem_cons, List.not_mem_nil, or_false] at hk
    rcases hk with rfl | rfl | rfl
    · rfl
    · exact absurd (hdouble.symm.trans hmatch) (by simp)
    · exact absurd hmatch hint
  cases t with
  | hexConstant =>
    refine Or.inr ⟨by decide, ?_⟩
    by_cases hnone : matchHex cs = none
    · exact hnone
    · rw [hhex hnone] at hlt
      exact absurd hlt (Nat.lt_irrefl _)
  | doubleConstant =>
    refine Or.inr ⟨by decide, ?_⟩
    simp only [List.mem_cons, List.not_mem_nil, or_false] at hk
    rcases hk with rfl | rfl | rfl
    · exact absurd hlt (by decide)
    · exact absurd hlt (by decide)
    · exact matchDouble_of_matchInt hmatch
  | baseType | identifier | lineComment | literal | blockComment | blank =>
    exact Or.inl ⟨c, by rw [hcs]; rfl, opensWith_eq_false_of_number hc (by decide)⟩
  | _ =>
    simp only [List.mem_cons, List.not_mem_nil, or_false] at hk
    rcases hk with rfl | rfl | rfl <;> exact absurd hlt (by decide)

/-- A piece of text is not read as any terminal that is tried before its own, except that words are identifiers. -/
theorem Written.match?_eq_none {k : Terminal} {cs rest : List Char} (h : Written k cs) (hrest : AtBlank rest)
    {t : Terminal} (hlt : t.number < k.number) (ht : t = .identifier → k.isKeyword = false) :
    t.match? (cs ++ rest) = none := by
  have htried : t ∈ Terminal.all := mem_all_of_lt hlt
  have hfirst : (∃ c ∈ cs.head?, t.opensWith c = false) ∨
      t ∉ [Terminal.lineComment, .literal, .blockComment, .blank] ∧ t.match? cs = none := by
    cases h with
    | number hk hmatch => exact match?_of_number hk hmatch hlt
    | base hname =>
      have hall : ∀ name ∈ baseTypeNames, name.toList.head?.any isNameStart = true := by decide
      obtain ⟨c, hc, hstart⟩ := (Option.any_eq_true _ _).1 (hall _ hname)
      refine Or.inl ⟨c, hc, ?_⟩
      have hdouble := opensWith_eq_false_of_name hstart
      cases t <;> first
        | exact absurd hlt (by decide)
        | exact hdouble
        | exact opensWith_eq_false_of_double hdouble
    | identifier hname =>
      obtain ⟨c, cs', hcs, hc, -⟩ := forall_mem_of_matchIdentifier hname.whole
      have hdouble := opensWith_eq_false_of_name hc
      cases t <;> first
        | exact absurd hlt (by decide)
        | exact Or.inr ⟨by decide, hname.matchBaseType⟩
        | exact Or.inl ⟨c, by rw [hcs]; rfl, hdouble⟩
        | exact Or.inl ⟨c, by rw [hcs]; rfl, opensWith_eq_false_of_double hdouble⟩
    | quoted hq hcs =>
      have hquotes : ∀ t ∈ Terminal.all, t.number < Terminal.literal.number →
          ['"', '\''].all (fun q => !t.opensWith q) = true := by decide
      refine Or.inl ⟨_, rfl, ?_⟩
      simpa using List.all_eq_true.1 (hquotes t htried hlt) _ hq
    | spelled hs =>
      have hk : k ∈ Terminal.all := by
        refine mem_all ?_
        rintro rfl
        cases hs
      exact (spelled_meet k hk _ hs t htried hlt ht).imp_left fun h => by simpa [Option.any_eq_true] using h
  obtain ⟨c, hc, hopen⟩ | ⟨hspecial, hnone⟩ := hfirst
  · obtain ⟨cs', rfl⟩ := List.head?_eq_some_iff.1 hc
    exact Idl.match?_eq_none hopen _
  · rw [match?_append hrest.atGap hspecial, hnone]

/-! ### The token at the front -/

/-- The first terminal that matches is found. -/
private theorem firstMatch_filter {p : Terminal → Bool} {k : Terminal} {cs : List Char} {n : Nat}
    (hk : k ∈ Terminal.all) (hp : p k = true) (hmatch : k.match? cs = some n)
    (hbefore : ∀ t, p t = true → t.number < k.number → t.match? cs = none) :
    firstMatch (Terminal.all.filter p) cs = some (k, n) := by
  have hsorted : Terminal.all.Pairwise fun t u => t.number < u.number := by decide
  obtain ⟨before, behind, hsplit⟩ := List.append_of_mem (List.mem_filter.2 ⟨hk, hp⟩)
  have hlt : ∀ t ∈ before, t.number < k.number := by
    have hpair := hsorted.filter p
    rw [hsplit, List.pairwise_append] at hpair
    exact fun t ht => hpair.2.2 t ht k List.mem_cons_self
  have hnone : before.findSome? (fun t => (t.match? cs).map fun n => (t, n)) = none := by
    rw [List.findSome?_eq_none_iff]
    intro t ht
    have hpt : p t = true := (List.mem_filter.1 (hsplit ▸ List.mem_append_left _ ht)).2
    rw [hbefore t hpt (hlt t ht)]
    rfl
  unfold firstMatch
  rw [hsplit, List.findSome?_append, hnone, List.findSome?_cons, hmatch]
  rfl

/-- Different words are spelled differently. -/
private theorem spelling?_inj {k l : Terminal} {s : String} (hk : k.spelling? = some s) (hl : l.spelling? = some s) :
    k = l := by
  have hall : ∀ k ∈ Terminal.all, ∀ l ∈ Terminal.all, k.spelling? ≠ none → k.spelling? = l.spelling? → k = l := by
    decide
  refine hall k (mem_all ?_) l (mem_all ?_) (by simp [hk]) (hk.trans hl.symm)
  · rintro rfl
    cases hk
  · rintro rfl
    cases hl

/-- A word is written as it is spelled, and could be read as an identifier. -/
private theorem Written.of_isKeyword {k : Terminal} {cs : List Char} (h : Written k cs) (hk : k.isKeyword = true) :
    k.spelling? = some (String.ofList cs) ∧ matchIdentifier cs = some cs.length := by
  have hall : ∀ k ∈ Terminal.all, k.isKeyword = true → ∀ s ∈ k.spelling?,
      matchIdentifier s.toList = some s.toList.length := by decide
  cases h with
  | spelled hs =>
    refine ⟨by rw [hs, String.ofList_toList], hall k (mem_all ?_) hk _ hs⟩
    rintro rfl
    cases hs
  | number hmem =>
    simp only [List.mem_cons, List.not_mem_nil, or_false] at hmem
    rcases hmem with rfl | rfl | rfl <;> cases hk
  | base | identifier | quoted => cases hk

/-- What a mode tries. -/
private def isTried (accepted : List Terminal) (t : Terminal) : Bool :=
  (accepted.contains t || t.isIgnored) &&
    !(if accepted.contains .identifier then accepted.filter Terminal.isKeyword else []).contains t

private theorem ofAccepted_tried (accepted : List Terminal) :
    (Mode.ofAccepted accepted).tried = Terminal.all.filter (isTried accepted) := rfl

private theorem ofAccepted_words (accepted : List Terminal) :
    (Mode.ofAccepted accepted).words =
      if accepted.contains .identifier then accepted.filter Terminal.isKeyword else [] := rfl

/-- Whatever is accepted is tried, except words beside identifiers. -/
private theorem isTried_of_mem {accepted : List Terminal} {k : Terminal} (hk : k ∈ accepted)
    (hword : Terminal.identifier ∈ accepted → k.isKeyword = false) : isTried accepted k = true := by
  unfold isTried
  by_cases hid : Terminal.identifier ∈ accepted
  · simp [hk, hid, hword hid]
  · simp [hk, hid]

/-- An accepted word is found beside identifiers. -/
private theorem find?_word {words : List Terminal} {k : Terminal} {s : String} (hk : k ∈ words)
    (hs : k.spelling? = some s) : words.find? (fun w => w.spelling? = some s) = some k := by
  cases h : words.find? fun w => w.spelling? = some s with
  | none => exact absurd hs (by simpa using List.find?_eq_none.1 h k hk)
  | some w =>
    have hw : w.spelling? = some s := by simpa using List.find?_some h
    rw [spelling?_inj hw hs]

/-- An identifier is no word. -/
private theorem find?_identifier {words : List Terminal} (hwords : ∀ w ∈ words, w.isKeyword = true) {cs : List Char}
    (hcs : Written .identifier cs) : words.find? (fun w => w.spelling? = some (String.ofList cs)) = none := by
  cases hcs with
  | identifier hname =>
    rw [String.ofList_toList, List.find?_eq_none]
    intro w hw
    simpa using hname.notKeyword w (hwords w hw)
  | number hmem => simp at hmem
  | spelled hs => cases hs

private theorem words_isKeyword (accepted : List Terminal) :
    ∀ w ∈ (Mode.ofAccepted accepted).words, w.isKeyword = true := by
  intro w hw
  rw [ofAccepted_words] at hw
  split at hw
  · exact (List.mem_filter.1 hw).2
  · cases hw

/-- A piece that stands for an accepted terminal is cut as this terminal. -/
theorem cut_written {accepted : List Terminal} {k : Terminal} {cs rest : List Char} (hk : k ∈ accepted)
    (hcs : Written k cs) (hrest : AtBlank rest) :
    (Mode.ofAccepted accepted).cut (cs ++ rest) = some (k, cs.length) := by
  by_cases hword : Terminal.identifier ∈ accepted ∧ k.isKeyword = true
  · obtain ⟨hid, hkeyword⟩ := hword
    obtain ⟨hspelling, hmatch⟩ := hcs.of_isKeyword hkeyword
    have hlt : Terminal.identifier.number < k.number := by
      revert hkeyword
      cases k <;> decide
    have hfirst : firstMatch (Mode.ofAccepted accepted).tried (cs ++ rest) = some (.identifier, cs.length) := by
      rw [ofAccepted_tried]
      refine firstMatch_filter (by decide) (isTried_of_mem hid fun _ => rfl) ?_ fun t _ ht => ?_
      · rw [match?_append hrest.atGap (by decide)]
        exact hmatch
      · refine hcs.match?_eq_none hrest (Nat.lt_trans ht hlt) ?_
        rintro rfl
        exact absurd ht (Nat.lt_irrefl _)
    have hfind : (Mode.ofAccepted accepted).words.find? (fun w => w.spelling? = some (String.ofList cs)) = some k := by
      rw [ofAccepted_words, if_pos (by simpa using hid)]
      exact find?_word (List.mem_filter.2 ⟨hk, hkeyword⟩) hspelling
    unfold Mode.cut
    rw [hfirst]
    dsimp only
    rw [List.take_left, hfind]
    rfl
  · have hword' : Terminal.identifier ∈ accepted → k.isKeyword = false := by
      intro hid
      cases hkeyword : k.isKeyword with
      | false => rfl
      | true => exact absurd ⟨hid, hkeyword⟩ hword
    have hfirst : firstMatch (Mode.ofAccepted accepted).tried (cs ++ rest) = some (k, cs.length) := by
      rw [ofAccepted_tried]
      refine firstMatch_filter (mem_all ?_) (isTried_of_mem hk hword') (hcs.match? hrest) fun t htried ht => ?_
      · rintro rfl
        cases hcs with
        | number hmem => simp at hmem
        | spelled hs => cases hs
      · refine hcs.match?_eq_none hrest ht ?_
        rintro rfl
        have hor : Terminal.identifier ∈ accepted ∨ Terminal.identifier.isIgnored = true := by
          rw [isTried, Bool.and_eq_true] at htried
          simpa using htried.1
        exact hword' (hor.resolve_right (by decide))
    unfold Mode.cut
    rw [hfirst]
    by_cases hid : k = .identifier
    · subst hid
      dsimp only
      rw [List.take_left, find?_identifier (words_isKeyword accepted) hcs]
      rfl
    · split
      · rename_i n heq
        cases heq
        exact absurd rfl hid
      · rfl

/-- Terminals are tried in their order. -/
theorem pairwise_tried (accepted : List Terminal) :
    (Mode.ofAccepted accepted).tried.Pairwise fun t u => t.number < u.number := by
  have hsorted : Terminal.all.Pairwise fun t u => t.number < u.number := by decide
  rw [ofAccepted_tried]
  exact hsorted.filter _

/-- What is tried and matches is cut wherever no terminal before it matches. -/
theorem cut_of_mem_tried {accepted : List Terminal} {k : Terminal} (hk : k ∈ (Mode.ofAccepted accepted).tried)
    (hidentifier : k ≠ .identifier) {cs : List Char} {n : Nat} (hmatch : k.match? cs = some n)
    (hbefore : ∀ t : Terminal, t.number < k.number → t.match? cs = none) :
    (Mode.ofAccepted accepted).cut cs = some (k, n) := by
  have hfirst : firstMatch (Mode.ofAccepted accepted).tried cs = some (k, n) := by
    rw [ofAccepted_tried] at hk ⊢
    obtain ⟨hall, htried⟩ := List.mem_filter.1 hk
    exact firstMatch_filter hall htried hmatch fun t _ ht => hbefore t ht
  unfold Mode.cut
  rw [hfirst]
  split
  · rename_i heq
    cases heq
    exact absurd rfl hidentifier
  · rfl

/-- Blanks and comments are cut wherever no terminal before their own matches. -/
theorem cut_ignored (accepted : List Terminal) {k : Terminal} (hk : k.isIgnored = true) {cs : List Char} {n : Nat}
    (hmatch : k.match? cs = some n) (hbefore : ∀ t : Terminal, t.number < k.number → t.match? cs = none) :
    (Mode.ofAccepted accepted).cut cs = some (k, n) := by
  have hword : k ∉ accepted.filter Terminal.isKeyword := by
    intro h
    have hkeyword := (List.mem_filter.1 h).2
    revert hk hkeyword
    cases k <;> decide
  refine cut_of_mem_tried ?_ ?_ hmatch hbefore
  · rw [ofAccepted_tried]
    refine List.mem_filter.2 ⟨mem_all ?_, ?_⟩
    · rintro rfl
      cases hk
    · unfold isTried
      split <;> simp [hk, hword]
  · rintro rfl
    cases hk

/-- Blanks are cut up to the next other character. -/
theorem cut_blanks (accepted : List Terminal) {w cs : List Char} (hne : w ≠ []) (hw : ∀ c ∈ w, isBlank c = true)
    (hcs : ∀ c ∈ cs.head?, isBlank c = false) :
    (Mode.ofAccepted accepted).cut (w ++ cs) = some (.blank, w.length) := by
  have hspan : spanLength isBlank (w ++ cs) = w.length := by
    have hbehind : cs.takeWhile isBlank = [] := by
      cases cs with
      | nil => rfl
      | cons c cs => rw [List.takeWhile_cons_of_neg (by simpa using hcs c rfl)]
    unfold spanLength
    rw [List.takeWhile_append_of_pos hw, hbehind, List.append_nil]
  have hmatch : Terminal.blank.match? (w ++ cs) = some w.length := by
    simp [Terminal.match?, matchBlank, hspan, hne]
  obtain ⟨c, w, rfl⟩ := List.exists_cons_of_ne_nil hne
  refine cut_ignored accepted rfl hmatch fun t ht => match?_eq_none (opensWith_eq_false_of_blank ?_ ht) (w ++ cs)
  exact hw c List.mem_cons_self

private theorem isBlank_eq_false_of_name {c : Char} (hc : isNameStart c = true) : isBlank c = false := by
  cases h : isBlank c with
  | false => rfl
  | true =>
    simp only [isBlank, Bool.or_eq_true, decide_eq_true_iff, or_assoc] at h
    revert hc
    rcases h with rfl | rfl | rfl | rfl | rfl <;> decide

/-- A piece of text begins with something else than a blank. -/
theorem Written.head? {k : Terminal} {cs : List Char} (h : Written k cs) : ∃ c ∈ cs.head?, isBlank c = false := by
  cases h with
  | number hk hmatch =>
    obtain ⟨c, cs', hcs, hc⟩ := exists_of_matchNumber hk (show k.match? cs ≠ none by simp [hmatch])
    exact ⟨c, by rw [hcs]; rfl, opensWith_eq_false_of_number hc (t := .blank) (by decide)⟩
  | base hname =>
    have hall : ∀ name ∈ baseTypeNames, name.toList.head?.any (fun c => !isBlank c) = true := by decide
    simpa [Option.any_eq_true] using hall _ hname
  | identifier hname =>
    obtain ⟨c, cs', hcs, hc, -⟩ := forall_mem_of_matchIdentifier hname.whole
    exact ⟨c, by rw [hcs]; rfl, isBlank_eq_false_of_name hc⟩
  | quoted hq =>
    have hquotes : ∀ q ∈ ['"', '\''], isBlank q = false := by simp [isBlank]
    exact ⟨_, rfl, hquotes _ hq⟩
  | spelled hs =>
    have hall : ∀ k ∈ Terminal.all, ∀ s ∈ k.spelling?, s.toList.head?.any (fun c => !isBlank c) = true := by
      decide
    have hk : k ∈ Terminal.all := by
      refine mem_all ?_
      rintro rfl
      cases hs
    simpa [Option.any_eq_true] using hall k hk _ hs

end ThriftGateway.Idl
