import ThriftGateway.Proofs.Idl.Failing
import ThriftGateway.Proofs.Source.Closure
import ThriftGateway.Proofs.Text.Utf8

/-!
# Files that are refused

Loading ends with the error of a file exactly if it opens one that has an error (`error_of_mem_opened`,
`exists_opened_of_error`).  A file has one if its bytes are no text, if its text is malformed, or if a field number in
it has too many digits; the first two are told of as invalid, with the canonical path of the file (`read_or_refused`).
-/

namespace ThriftGateway.Source

open Idl (IsShort parse parseTree)
open Text (encode)

variable {t : FileTree} {l : Library} {p : Path} {ps : List Path}

/-! ### Files that are opened -/

/-- Files are opened if they are met and not loaded. -/
private theorem meets_of_mem_opened (h : p ∈ (loadPending t l ps).opened) : Meets t l ps p ∧ l.contains p = false := by
  induction l, ps using loading_induction t with
  | done l =>
    rw [loadPending_nil] at h
    cases h
  | skipped l q ps hq ih =>
    rw [loadPending_of_contains hq] at h
    exact (ih h).imp_left (Meets.mono fun _ => List.mem_cons_of_mem _)
  | unreadable l q ps e hq he =>
    rw [loadPending_of_error hq he] at h
    obtain rfl := List.mem_singleton.1 h
    exact ⟨.root List.mem_cons_self, hq⟩
  | parsed l q ps d hq hd ih =>
    rw [loadPending_of_ok hq hd] at h
    rcases List.mem_cons.1 h with rfl | h
    · exact ⟨.root List.mem_cons_self, hq⟩
    · obtain ⟨hmeets, hcontains⟩ := ih h
      rw [Library.contains_add, Bool.or_eq_false_iff] at hcontains
      exact ⟨hmeets.of_add hq hd, hcontains.1⟩

/-- The first of the requested files that is not loaded is opened. -/
private theorem mem_opened_of_find? (h : ps.find? (fun q => !l.contains q) = some p) :
    p ∈ (loadPending t l ps).opened := by
  induction ps with
  | nil => cases h
  | cons q ps ih =>
    cases hq : l.contains q with
    | true =>
      rw [List.find?_cons_of_neg (by simp [hq])] at h
      rw [loadPending_of_contains hq]
      exact ih h
    | false =>
      rw [List.find?_cons_of_pos (by simp [hq])] at h
      obtain rfl := Option.some.inj h
      cases hd : t.document q with
      | error e =>
        rw [loadPending_of_error hq hd]
        exact List.mem_cons_self
      | ok d =>
        rw [loadPending_of_ok hq hd]
        exact List.mem_cons_self

/-- Loading ends with the error of a file that it opens. -/
theorem error_of_mem_opened {e : LoadError} (h : p ∈ (loadPending t l ps).opened) (he : t.document p = .error e) :
    (loadPending t l ps).error = some e := by
  induction l, ps using loading_induction t with
  | done l =>
    rw [loadPending_nil] at h
    cases h
  | skipped l q ps hq ih =>
    rw [loadPending_of_contains hq] at h ⊢
    exact ih h
  | unreadable l q ps e' hq he' =>
    rw [loadPending_of_error hq he'] at h ⊢
    obtain rfl := List.mem_singleton.1 h
    rw [he] at he'
    cases he'
    rfl
  | parsed l q ps d hq hd ih =>
    rw [loadPending_of_ok hq hd] at h ⊢
    rcases List.mem_cons.1 h with rfl | h
    · rw [he] at hd
      cases hd
    · exact ih h

/-- And with no other. -/
theorem exists_opened_of_error {e : LoadError} (h : (loadPending t l ps).error = some e) :
    ∃ p ∈ (loadPending t l ps).opened, t.document p = .error e := by
  induction l, ps using loading_induction t with
  | done l =>
    rw [loadPending_nil] at h
    cases h
  | skipped l q ps hq ih =>
    rw [loadPending_of_contains hq] at h ⊢
    exact ih h
  | unreadable l q ps e' hq he' =>
    rw [loadPending_of_error hq he'] at h ⊢
    obtain rfl := Option.some.inj h
    exact ⟨q, List.mem_cons_self, he'⟩
  | parsed l q ps d hq hd ih =>
    rw [loadPending_of_ok hq hd] at h ⊢
    obtain ⟨p, hp, he⟩ := ih h
    exact ⟨p, List.mem_cons_of_mem _ hp, he⟩

/-! ### What bytes stand for -/

private theorem readDocument_of_ne_encode {bytes : List UInt8} (h : ∀ s, bytes ≠ encode s) :
    ∃ issue, readDocument p bytes = .error (.invalid p [issue]) := by
  unfold readDocument
  cases hdecode : Text.decode bytes with
  | error fault => exact ⟨_, rfl⟩
  | ok cs => exact absurd (Text.decode_eq_ok_iff.1 hdecode) (h _)

private theorem readDocument_encode (s : String) :
    readDocument p (encode s) =
      match parse (String.ofList (Text.unixLines s.toList)) with
      | .error (.malformed e) => .error (.invalid p [e.issue])
      | .error .numeralTooLong => .error (.numeralTooLong p)
      | .ok d => .ok { d with path := some p } := by
  have hdecode : Text.decode (encode s) = .ok s.toList := Text.decode_eq_ok_iff.2 (by rw [String.ofList_toList])
  cases hparse : parse (String.ofList (Text.unixLines s.toList)) with
  | ok d => simp only [readDocument, hdecode, hparse]
  | error failure => cases failure <;> simp only [readDocument, hdecode, hparse]

private theorem document_of_read {bytes : List UInt8} (h : t.read p = .ok bytes) :
    t.document p = readDocument p bytes := by
  unfold FileTree.document
  rw [h]

/-- The path of an error about a field number is that of its file. -/
private theorem eq_of_document_numeralTooLong {q : Path} (h : t.document p = .error (.numeralTooLong q)) : p = q := by
  unfold FileTree.document readDocument at h
  split at h
  · cases h
  · split at h
    · cases h
    · split at h
      · cases h
      · cases h
        rfl
      · cases h

/-! ### Texts and files -/

/-- Every text is parsed to a whole document, or refused with one issue at a place that it has, unless a field number in
it has too many digits; the lines of the tokens that descriptions are looked up by are lines of the text.  Loading opens
the first file that is asked for and not loaded.  A file that it opens, by a canonical path, is refused as invalid with
this path if its bytes are no text or its text is malformed, and with another error exactly if a field number in it has
too many digits. -/
theorem read_or_refused (hw : t.working.IsCanonical) (l : Library) (written : List String) :
    let paths := written.map t.working.resolve
    let r := l.load t paths
    (∀ text : String,
      ((∃ d, parse text = .ok d ∧ d.IsWhole) ∨
        (∃ e, parse text = .error (.malformed e) ∧ 1 ≤ e.issue.line ∧ 1 ≤ e.issue.column ∧ e.IsWithin text.toList) ∨
        parse text = .error .numeralTooLong) ∧
      (parse text = .error .numeralTooLong ↔ ∃ parsed, parseTree text.toList = .ok parsed ∧
        ∃ numeral ∈ parsed.tree.fieldNumerals, ¬ IsShort numeral) ∧
      ∀ parsed, parseTree text.toList = .ok parsed → ∀ token ∈ parsed.tree.tokens,
        1 ≤ token.start.line ∧ token.start.line ≤ token.stop.line ∧
          token.stop.line ≤ (Text.lines text.toList).length) ∧
    (∀ p, paths.find? (fun q => !l.contains q) = some p → p ∈ r.opened) ∧
    ∀ p ∈ r.opened, p.IsCanonical ∧ ∀ bytes, t.read p = .ok bytes →
      ((∀ s, bytes ≠ encode s) → ∃ issue, r.error = some (.invalid p [issue])) ∧
      ∀ s, bytes = encode s →
        (∀ e, parse (String.ofList (Text.unixLines s.toList)) = .error (.malformed e) →
          r.error = some (.invalid p [e.issue])) ∧
        (parse (String.ofList (Text.unixLines s.toList)) = .error .numeralTooLong ↔
          r.error = some (.numeralTooLong p)) := by
  intro paths r
  refine ⟨fun text => ⟨?_, Idl.parse_eq_numeralTooLong_iff, fun parsed hparsed => Idl.Tree.lines_of_parseTree hparsed⟩,
    fun p hp => mem_opened_of_find? hp, fun p hp => ⟨?_, fun bytes hread => ⟨fun hbytes => ?_, ?_⟩⟩⟩
  · refine (Idl.parse_cases text).imp_right (Or.imp_left ?_)
    rintro ⟨e, hparse, front, hfront, hline, hcolumn⟩
    exact ⟨e, hparse, by omega, by omega, front, hfront, hline, hcolumn⟩
  · refine (meets_of_mem_opened hp).1.isCanonical fun q hq => ?_
    obtain ⟨text, -, rfl⟩ := List.mem_map.1 hq
    exact Path.resolve_isCanonical hw text
  · obtain ⟨issue, hissue⟩ := readDocument_of_ne_encode hbytes
    exact ⟨issue, error_of_mem_opened hp ((document_of_read hread).trans hissue)⟩
  · rintro s rfl
    have hdocument := (document_of_read hread).trans (readDocument_encode s)
    refine ⟨fun e he => error_of_mem_opened hp (by rw [hdocument, he]),
      fun he => error_of_mem_opened hp (by rw [hdocument, he]), fun he => ?_⟩
    obtain ⟨q, -, hq⟩ := exists_opened_of_error he
    obtain rfl := eq_of_document_numeralTooLong hq
    rw [hdocument] at hq
    split at hq
    · cases hq
    · assumption
    · cases hq

/-- Two files, the text of one of which ends too early; the bytes of the other one are no text. -/
def broken : FileTree where
  working := ⟨["idl"]⟩
  files := [(⟨["idl", "a.thrift"]⟩, encode "struct S \x7b"), (⟨["idl", "b.thrift"]⟩, [0x73, 0xFF])]

/-- The first file is refused at its last token and the second one as a whole, however their paths are written. -/
theorem read_or_refused_broken :
    broken.working.IsCanonical ∧
    (∃ message, (Library.empty.load broken (["x/../a.thrift"].map broken.working.resolve)).error =
      some (.invalid ⟨["idl", "a.thrift"]⟩ [⟨message, 1, 10⟩])) ∧
    ∃ issue, (Library.empty.load broken (["/idl/b.thrift"].map broken.working.resolve)).error =
      some (.invalid ⟨["idl", "b.thrift"]⟩ [issue]) := by
  have hw : broken.working.IsCanonical := by
    have hroot : broken.working = Path.root.resolve "/idl" := by decide +kernel
    rw [hroot]
    exact Path.resolve_isCanonical Path.root_isCanonical _
  refine ⟨hw, ?_, ?_⟩
  · obtain ⟨-, hopened, hrefused⟩ := read_or_refused hw .empty ["x/../a.thrift"]
    have hread : broken.read ⟨["idl", "a.thrift"]⟩ = .ok (encode "struct S \x7b") := by decide +kernel
    have hparse : (match parse (String.ofList (Text.unixLines "struct S \x7b".toList)) with
        | .error (.malformed e) => e.issue.line = 1 && e.issue.column = 10
        | _ => false) = true := by decide +kernel
    obtain ⟨-, hfile⟩ := hrefused ⟨["idl", "a.thrift"]⟩ (hopened _ (by decide +kernel))
    obtain ⟨-, htext⟩ := hfile _ hread
    split at hparse
    · rename_i e he
      have herror := (htext _ rfl).1 e he
      rw [Bool.and_eq_true, decide_eq_true_eq, decide_eq_true_eq] at hparse
      exact ⟨e.issue.message, by rw [herror, ← hparse.1, ← hparse.2]⟩
    · cases hparse
  · obtain ⟨-, hopened, hrefused⟩ := read_or_refused hw .empty ["/idl/b.thrift"]
    have hread : broken.read ⟨["idl", "b.thrift"]⟩ = .ok [0x73, 0xFF] := by decide +kernel
    obtain ⟨-, hfile⟩ := hrefused ⟨["idl", "b.thrift"]⟩ (hopened _ (by decide +kernel))
    obtain ⟨hbytes, -⟩ := hfile _ hread
    refine hbytes fun s hs => ?_
    have hdecode : Text.decode [0x73, 0xFF] = .ok s.toList := Text.decode_eq_ok_iff.2 (by rw [hs, String.ofList_toList])
    cases hdecode

/-- Not every text is parsed or refused: one with a field number of too many digits is neither. -/
theorem not_read_or_refused :
    ¬ ∀ text : String, (∃ d, parse text = .ok d) ∨
      ∃ e, parse text = .error (.malformed e) ∧ 1 ≤ e.issue.line ∧ 1 ≤ e.issue.column := by
  obtain ⟨numeral, hnumeral, hlong⟩ := Idl.exists_long
  intro hall
  have hparse := Idl.parse_numbered hnumeral hlong
  obtain ⟨d, hd⟩ | ⟨e, he, -⟩ := hall (Idl.numbered numeral)
  · rw [hparse] at hd
    cases hd
  · rw [hparse] at he
    cases he

end ThriftGateway.Source
