import ThriftGateway.Proofs.Idl.Whole

/-!
# Texts that are no documents

Every text is parsed to a whole document, or refused at a place that it has, or has a field number of too many digits
(`parse_cases`); the last is so exactly if the grammar accepts the text and one of its field numbers is too long
(`parse_eq_numeralTooLong_iff`).
-/

namespace ThriftGateway.Idl

open Grammar (Position Token)
open Text (isDigit lastLine)
open scoped List

/-! ### Places of errors -/

/-- The place that an error is about. -/
def SyntaxError.place : SyntaxError → Position
  | unexpectedToken _ _ place | unexpectedCharacter _ place => place

/-- The diagnostic is at a place of the text: its line and column are one more than the line feeds and the characters of
the last line before it. -/
def SyntaxError.IsWithin (e : SyntaxError) (text : List Char) : Prop :=
  ∃ front, front <+: text ∧ e.issue.line = front.count '\n' + 1 ∧ e.issue.column = (lastLine front).length + 1

private theorem SyntaxError.issue_eq (e : SyntaxError) :
    e.issue.line = e.place.line ∧ e.issue.column = e.place.column := by
  cases e <;> exact ⟨rfl, rfl⟩

private theorem place_unmatched (m : Mode) (place : Position) (cs : List Char) :
    (unmatched m place cs).place = place := by
  unfold unmatched
  split <;> rfl

section Run

attribute [local irreducible] take takeFuel Mode.cut modeOf acceptedIn

/-- What the parser has read of a text, and the place of its last token, are at places of the text. -/
structure Progress.IsAt (p : Progress) (text front : List Char) : Prop where
  place : p.place = Position.origin.advance front
  last : ∃ x, x <+: text ∧ p.last = Position.origin.advance x

/-- A run that fails does so at a place of the text.  The induction is on the fuel; what is read is always a front of
the text. -/
private theorem place_of_run {fuel : Nat} {p : Progress} {text front cs : List Char} {e : SyntaxError}
    (h : run fuel p cs = .error e) (htext : text = front ++ cs) (hp : p.IsAt text front) :
    ∃ x, x <+: text ∧ e.place = Position.origin.advance x := by
  have hhere : front <+: text := ⟨cs, htext.symm⟩
  induction fuel generalizing p front cs with
  | zero =>
    cases h
    exact ⟨front, hhere, hp.place⟩
  | succ fuel ih =>
    cases cs with
    | nil =>
      rw [run_end] at h
      split at h
      · cases h
      · cases h
        exact hp.last
      · cases h
        exact hp.last
    | cons c cs =>
      rw [run_succ] at h
      split at h
      · cases h
        exact ⟨front, hhere, (place_unmatched _ _ _).trans hp.place⟩
      · rename_i k n hcut
        have hsplit : text = (front ++ (c :: cs).take n) ++ (c :: cs).drop n := by
          rw [List.append_assoc, List.take_append_drop, htext]
        have hstop : p.place.advance ((c :: cs).take n) = Position.origin.advance (front ++ (c :: cs).take n) := by
          rw [hp.place, advance_append]
        dsimp only at h
        split at h
        · exact ih h hsplit ⟨hstop, hp.last⟩ ⟨_, hsplit.symm⟩
        · split at h
          · exact ih h hsplit ⟨hstop, front, hhere, hp.place⟩ ⟨_, hsplit.symm⟩
          · cases h
            exact ⟨front, hhere, hp.place⟩
          · cases h
            exact ⟨front, hhere, hp.place⟩

end Run

/-- What the grammar does not accept is refused at a place of the text. -/
private theorem isWithin_of_parseTree {text : List Char} {e : SyntaxError} (h : parseTree text = .error e) :
    e.IsWithin text := by
  have hbegin : Progress.IsAt {} text [] := ⟨rfl, [], List.nil_prefix, rfl⟩
  obtain ⟨front, hfront, hplace⟩ := place_of_run h (List.nil_append text).symm hbegin
  obtain ⟨hline, hcolumn⟩ := e.issue_eq
  rw [hplace, advance_origin] at hline hcolumn
  exact ⟨front, hfront, hline, hcolumn⟩

/-! ### Field numbers -/

namespace Tree

mutual
/-- The field numbers in a tree, as they are written. -/
def fieldNumerals : Tree → List String
  | .leaf _ => []
  | .node c ts =>
    (if c = .fieldId then [(Grammar.Tree.node c ts).leafText .intConstant 0] else []) ++ fieldNumeralsAll ts

def fieldNumeralsAll : List Tree → List String
  | [] => []
  | t :: ts => fieldNumerals t ++ fieldNumeralsAll ts
end

end Tree

/-- The digits are not more than are read. -/
def IsShort (numeral : String) : Prop := (numeral.toList.filter isDigit).length ≤ Number.digitLimit

private theorem fieldId_readable {ts : List Tree} (h : Tree.IsRead (.node .fieldId ts)) :
    (fieldIdOf (.node .fieldId ts)).isSome = true ↔ IsShort ((Grammar.Tree.node .fieldId ts).leafText .intConstant 0) :=
  isSome_readInt?_iff (h.isText_leafText (by decide))

mutual
private theorem numbersReadable_iff : (t : Tree) → t.IsRead →
    (numbersReadable t = true ↔ ∀ numeral ∈ t.fieldNumerals, IsShort numeral)
  | .leaf _, _ => ⟨fun _ => List.forall_mem_nil _, fun _ => rfl⟩
  | .node c ts, h => by
    have hbelow := numbersReadableAll_iff ts fun _ => h.of_mem
    rw [numbersReadable, Tree.fieldNumerals, Bool.and_eq_true, List.forall_mem_append, hbelow]
    refine and_congr_left fun _ => ?_
    by_cases hc : c = .fieldId
    · subst hc
      rw [if_pos rfl, List.forall_mem_singleton, decide_eq_false fun hne => hne rfl, Bool.false_or]
      exact fieldId_readable h
    · simp [hc]

private theorem numbersReadableAll_iff : (ts : List Tree) → (∀ t ∈ ts, t.IsRead) →
    (numbersReadableAll ts = true ↔ ∀ numeral ∈ Tree.fieldNumeralsAll ts, IsShort numeral)
  | [], _ => ⟨fun _ => List.forall_mem_nil _, fun _ => rfl⟩
  | t :: ts, h => by
    rw [numbersReadableAll, Tree.fieldNumeralsAll, Bool.and_eq_true, List.forall_mem_append,
      numbersReadable_iff t (h t List.mem_cons_self),
      numbersReadableAll_iff ts fun u hu => h u (List.mem_cons_of_mem _ hu)]
end

/-! ### Outcomes of parsing -/

private theorem parse_eq_malformed_iff {text : String} {e : SyntaxError} :
    parse text = .error (.malformed e) ↔ parseTree text.toList = .error e := by
  unfold parse
  cases parseTree text.toList with
  | error e' => simp
  | ok parsed =>
    dsimp only
    split <;> simp

/-- A text is not read though the grammar accepts it exactly if a field number in it has too many digits. -/
theorem parse_eq_numeralTooLong_iff {text : String} :
    parse text = .error .numeralTooLong ↔
      ∃ parsed, parseTree text.toList = .ok parsed ∧ ∃ numeral ∈ parsed.tree.fieldNumerals, ¬ IsShort numeral := by
  unfold parse
  cases hparse : parseTree text.toList with
  | error e => simp
  | ok parsed =>
    have hiff : numbersReadable parsed.tree = true ↔ ∀ numeral ∈ parsed.tree.fieldNumerals, IsShort numeral := by
      obtain ⟨hread | hempty, -⟩ := Tree.isRead_of_parseTree hparse
      · exact numbersReadable_iff _ hread
      · rw [hempty]
        simp [numbersReadable, numbersReadableAll, Tree.fieldNumerals, Tree.fieldNumeralsAll]
    have hnot : ¬ numbersReadable parsed.tree = true ↔ ∃ numeral ∈ parsed.tree.fieldNumerals, ¬ IsShort numeral := by
      rw [hiff]
      simp only [not_forall, exists_prop]
    simp only [Except.ok.injEq, exists_eq_left']
    rw [← hnot]
    split
    · rename_i hreadable
      exact ⟨fun h => (by cases h), fun h => absurd hreadable h⟩
    · rename_i h
      exact ⟨fun _ => h, fun _ => rfl⟩

theorem parse_cases (text : String) :
    (∃ d, parse text = .ok d ∧ d.IsWhole) ∨
      (∃ e, parse text = .error (.malformed e) ∧ e.IsWithin text.toList) ∨ parse text = .error .numeralTooLong := by
  cases hparse : parse text with
  | ok d => exact .inl ⟨d, rfl, isWhole_of_parse hparse⟩
  | error failure =>
    cases failure with
    | malformed e => exact .inr (.inl ⟨e, rfl, isWithin_of_parseTree (parse_eq_malformed_iff.1 hparse)⟩)
    | numeralTooLong => exact .inr (.inr rfl)

/-! ### A field number that is too long -/

/-- The lexemes of a struct with one field, which has a number. -/
def numberedLexemes (numeral : String) : List Lexeme :=
  [.fixed .kwStruct, .word .identifier "S", .fixed .leftBrace, .word .intConstant numeral, .fixed .colon,
    .word .baseType "i32", .word .identifier "a", .fixed .rightBrace]

/-- A struct with one field, which has a number. -/
def numbered (numeral : String) : String := " ".intercalate ((numberedLexemes numeral).map Lexeme.spelling)

private theorem isSound_of_mem_numberedLexemes {numeral : String} (h : Terminal.intConstant.IsText numeral) :
    ∀ l ∈ numberedLexemes numeral, l.IsSound := by
  have hidentifier : ∀ name ∈ ["S", "a"], IsIdentifier name := by decide
  intro l hl
  simp only [numberedLexemes, List.mem_cons, List.not_mem_nil, or_false] at hl
  rcases hl with rfl | rfl | rfl | rfl | rfl | rfl | rfl | rfl
  · exact Lexeme.isSound_fixed (by decide)
  · exact ⟨by decide, .identifier (hidentifier _ (by simp))⟩
  · exact Lexeme.isSound_fixed (by decide)
  · exact ⟨by decide, .number (by decide) h⟩
  · exact Lexeme.isSound_fixed (by decide)
  · exact ⟨by decide, .base (by decide)⟩
  · exact ⟨by decide, .identifier (hidentifier _ (by simp))⟩
  · exact Lexeme.isSound_fixed (by decide)

/-- A parse tree of such a struct. -/
def numberedTree (struct name opening number colon type field closing : Token Terminal) : Tree :=
  .node .document [.node .statements [.node .definition [.node .struct [.leaf struct, .leaf name, .leaf opening,
    .node .fields [.node .field [.node .fieldId [.leaf number, .leaf colon],
      .node .fieldType [.node .base [.leaf type]], .leaf field]], .leaf closing]]]]

private theorem derives_numberedTree {struct name opening number colon type field closing : Token Terminal}
    (h : [struct, name, opening, number, colon, type, field, closing].map Token.kind =
      [.kwStruct, .identifier, .leftBrace, .intConstant, .colon, .baseType, .identifier, .rightBrace]) :
    Tree.Derives (numberedTree struct name opening number colon type field closing) := by
  have hnode : ∀ {c : Category} {ts : List Tree} (ss : List Piece), ss ∈ rightSides c → ss ≠ [] →
      ts.map Grammar.Tree.root = ss → Tree.DeriveAll ts → Tree.Derives (.node c ts) := by
    rintro c ts ss hss hne rfl hts
    exact ⟨fun hnil => hne (by rw [hnil]; rfl), mem_productions hss, hts⟩
  simp only [List.map_cons, List.map_nil, List.cons.injEq, and_true] at h
  obtain ⟨hstruct, hname, hopening, hnumber, hcolon, htype, hfield, hclosing⟩ := h
  have hid : Tree.Derives (.node .fieldId [.leaf number, .leaf colon]) :=
    hnode [.terminal .intConstant, .terminal .colon] (by decide) (by decide)
      (by simp [Grammar.Tree.root, hnumber, hcolon]) ⟨trivial, trivial, trivial⟩
  have hbase : Tree.Derives (.node .base [.leaf type]) :=
    hnode [.terminal .baseType] (by decide) (by decide) (by simp [Grammar.Tree.root, htype]) ⟨trivial, trivial⟩
  have hfieldType : Tree.Derives (.node .fieldType [.node .base [.leaf type]]) :=
    hnode [.category .base] (by decide) (by decide) rfl ⟨hbase, trivial⟩
  refine hnode [.category .statements] (by decide) (by decide) rfl ⟨?_, trivial⟩
  refine hnode [.category .definition] (by decide) (by decide) rfl ⟨?_, trivial⟩
  refine hnode [.category .struct] (by decide) (by decide) rfl ⟨?_, trivial⟩
  refine hnode [.terminal .kwStruct, .terminal .identifier, .terminal .leftBrace, .category .fields,
    .terminal .rightBrace] (by decide) (by decide) (by simp [Grammar.Tree.root, hstruct, hname, hopening, hclosing])
    ⟨trivial, trivial, trivial, ?_, trivial, trivial⟩
  refine hnode [.category .field] (by decide) (by decide) rfl ⟨?_, trivial⟩
  exact hnode [.category .fieldId, .category .fieldType, .terminal .identifier] (by decide) (by decide)
    (by simp [Grammar.Tree.root, hfield]) ⟨hid, hfieldType, trivial, trivial⟩

/-- The grammar accepts such a struct, whatever its number. -/
private theorem exists_numbered {numeral : String} (h : Terminal.intConstant.IsText numeral) :
    ∃ parsed, parseTree (numbered numeral).toList = .ok parsed ∧ parsed.tree.fieldNumerals = [numeral] := by
  let pieces := (numberedLexemes numeral).map fun l => (l, l.spelling)
  have hsound : ∀ q ∈ pieces, q.1.IsSound ∧ q.1.Spells q.2 := by
    refine List.forall_mem_map.2 fun l hl => ?_
    have hsound := isSound_of_mem_numberedLexemes h l hl
    exact ⟨hsound, hsound.spells⟩
  obtain ⟨struct, name, opening, number, colon, type, field, closing, htokens, hkinds, hnumber⟩ :
      ∃ struct name opening number colon type field closing : Token Terminal,
        tokensFrom .origin pieces = [struct, name, opening, number, colon, type, field, closing] ∧
        [struct, name, opening, number, colon, type, field, closing].map Token.kind =
          [.kwStruct, .identifier, .leftBrace, .intConstant, .colon, .baseType, .identifier, .rightBrace] ∧
        number.text = String.ofList numeral.toList := ⟨_, _, _, _, _, _, _, _, rfl, rfl, rfl⟩
  have hderives := derives_numberedTree hkinds
  have haccepts : Accepts [] (tokensFrom .origin pieces)
      (numberedTree struct name opening number colon type field closing) := by
    rw [htokens]
    exact accepts_of_derives hderives rfl
  have hparse := parseTree_spelled hsound (List.cons_ne_nil _ _) haccepts
  have htext : " ".intercalate (pieces.map Prod.snd) = numbered numeral := by
    rw [List.map_map]
    rfl
  rw [htext] at hparse
  refine ⟨_, hparse, ?_⟩
  have hkind : number.kind = .intConstant := by
    have hsecond := congrArg (fun ks => ks[3]?) hkinds
    simpa using hsecond
  simp [numberedTree, Tree.fieldNumerals, Tree.fieldNumeralsAll, Grammar.Tree.leafText, hkind, hnumber]

/-- So it is not read if the number has too many digits. -/
theorem parse_numbered {numeral : String} (h : Terminal.intConstant.IsText numeral) (hlong : ¬ IsShort numeral) :
    parse (numbered numeral) = .error .numeralTooLong := by
  obtain ⟨parsed, hparse, hnumerals⟩ := exists_numbered h
  exact parse_eq_numeralTooLong_iff.2 ⟨parsed, hparse, numeral, by rw [hnumerals]; exact List.mem_cons_self, hlong⟩

theorem exists_long : ∃ numeral, Terminal.intConstant.IsText numeral ∧ ¬ IsShort numeral := by
  have hall : ∀ c ∈ List.replicate (Number.digitLimit + 1) '1', isDigit c = true := fun c hc => by
    rw [List.eq_of_mem_replicate hc]
    rfl
  have hspan : spanLength isDigit (List.replicate (Number.digitLimit + 1) '1') = Number.digitLimit + 1 := by
    rw [spanLength, List.takeWhile_eq_self_iff.2 hall, List.length_replicate]
  refine ⟨String.ofList (List.replicate (Number.digitLimit + 1) '1'), ?_, ?_⟩
  · rw [Terminal.IsText, String.toList_ofList]
    show matchInt (List.replicate (Number.digitLimit + 1) '1') = _
    have hsplit : splitSign (List.replicate (Number.digitLimit + 1) '1') =
        (0, List.replicate (Number.digitLimit + 1) '1') := rfl
    rw [matchInt, hsplit]
    dsimp only
    rw [hspan, if_neg (Nat.succ_ne_zero _), Nat.zero_add, List.length_replicate]
  · rw [IsShort, String.toList_ofList, List.filter_eq_self.2 hall, List.length_replicate]
    exact Nat.not_succ_le_self _

end ThriftGateway.Idl
