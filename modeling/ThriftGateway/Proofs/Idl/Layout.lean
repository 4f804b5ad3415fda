import Mathlib.Data.List.Nodup
import ThriftGateway.Proofs.Idl.Derived
import ThriftGateway.Proofs.Text.Lines

/-!
# The pieces of a text

A text that is parsed is cut into blanks, comments and the tokens of its tree, one behind the other (`Layout`).  Where
two of these pieces stand is told by what stands before, between and behind them (`Laid.split`), and no piece opens a
line that another one has begun or a comment has ended on (`Laid.not_opensLine`).
-/

namespace ThriftGateway.Idl

open Grammar (Position Token)
open Text (isDigit isNameStart isWhite lastLine lineAt)
open scoped List

/-! ### Places -/

/-- The line of a place is told by the line feeds before it, its column by what stands behind the last of them. -/
theorem advance_origin (x : List Char) :
    Position.origin.advance x = ⟨x.count '\n' + 1, (lastLine x).length + 1⟩ := by
  induction x using List.reverseRecOn with
  | nil => rfl
  | append_singleton x c ih =>
    rw [advance_append, ih]
    show Position.after _ c = _
    unfold Position.after
    by_cases hc : c = '\n'
    · rw [if_pos hc, hc, Text.lastLine_append_feed, List.count_append]
      simp
    · have hfeed : '\n' ∉ [c] := by simpa using Ne.symm hc
      rw [if_neg hc, Text.lastLine_append_of_not_mem x hfeed, List.count_append, List.count_eq_zero.2 hfeed]
      simp

/-- What stands before a place on its line. -/
def textBefore (text : List Char) (p : Position) : List Char := (lineAt text p.line).take (p.column - 1)

/-- What stands behind a place on its line. -/
def textBehind (text : List Char) (p : Position) : List Char := (lineAt text p.line).drop (p.column - 1)

/-- Only white space stands before the place on its line. -/
def OpensLine (text : List Char) (p : Position) : Prop := (textBefore text p).all isWhite = true

/-- Only white space stands behind the place on its line. -/
def ClosesLine (text : List Char) (p : Position) : Prop := (textBehind text p).all isWhite = true

instance (text : List Char) (p : Position) : Decidable (OpensLine text p) :=
  inferInstanceAs (Decidable (_ = true))

instance (text : List Char) (p : Position) : Decidable (ClosesLine text p) :=
  inferInstanceAs (Decidable (_ = true))

theorem textBefore_append (x y : List Char) : textBefore (x ++ y) (Position.origin.advance x) = lastLine x := by
  rw [advance_origin]
  show (lineAt (x ++ y) (x.count '\n' + 1)).take (lastLine x).length = lastLine x
  rw [Text.lineAt_append, List.take_left]

/-- Behind characters other than line feeds there is the same line. -/
theorem not_mem_of_line_advance {x z : List Char}
    (h : (Position.origin.advance (x ++ z)).line = (Position.origin.advance x).line) : '\n' ∉ z := by
  rw [advance_origin, advance_origin, List.count_append] at h
  exact List.count_eq_zero.1 (by simpa using h)

/-! ### Pieces -/

/-- A text is cut into pieces from a place on: each is as long as its terminal matches. -/
inductive Laid : Position → List Char → List (Token Terminal) → Prop
  | nil {p : Position} : Laid p [] []
  | cons {p : Position} {k : Terminal} {piece rest : List Char} {pieces : List (Token Terminal)} :
      k.match? (piece ++ rest) = some piece.length → Laid (p.advance piece) rest pieces →
      Laid p (piece ++ rest) (tokenAt p k piece :: pieces)

/-- Comments, line comments and block comments. -/
def Terminal.isComment (k : Terminal) : Bool := k.isIgnored && k ≠ .blank

/-- The pieces of a text that is parsed: blanks, comments, and the tokens of the tree. -/
structure Layout (text : List Char) (parsed : Parsed) (pieces : List (Token Terminal)) : Prop where
  laid : Laid .origin text pieces
  tokens : parsed.tree.tokens = pieces.filter fun t => !t.kind.isIgnored
  comments : parsed.comments = pieces.filter fun t => t.kind.isComment

/-- What is cut matches its terminal. -/
private theorem match?_of_cut {m : Mode} {cs : List Char} {k : Terminal} {n : Nat} (h : m.cut cs = some (k, n)) :
    k.match? cs = some n := by
  obtain ⟨l, hfirst, hk⟩ := cut_eq_some.1 h
  obtain ⟨-, -, -, hmatch, -⟩ := firstMatch_eq_some.1 hfirst
  unfold Mode.wordOr at hk
  split at hk
  · cases hword : m.words.find? fun w => w.spelling? = some (String.ofList (cs.take n)) with
    | none =>
      rw [hword] at hk
      subst hk
      rename_i hl
      rwa [hl] at hmatch
    | some w =>
      rw [hword] at hk
      obtain rfl : w = k := hk
      have hspelling : w.spelling? = some (String.ofList (cs.take n)) := by simpa using List.find?_some hword
      have hn := (match?_bounds hmatch).2
      have hlength : (String.ofList (cs.take n)).length = n := by
        rw [String.length_ofList, List.length_take, Nat.min_eq_left hn]
      rw [match?_spelled hspelling, String.toList_ofList,
        if_pos (List.isPrefixOf_iff_prefix.2 (List.take_prefix n cs)), hlength]
  · rwa [← hk]

section Parsing

attribute [local irreducible] take takeFuel Mode.cut modeOf

/-- Comments are kept, and nothing else. -/
private theorem Progress.comments_of_after? {p q : Progress} {k : Terminal} {piece : List Char}
    (h : p.after? k piece = some q) :
    q.comments.reverse = p.comments.reverse ++ [tokenAt p.place k piece].filter fun t => t.kind.isComment := by
  unfold Progress.after? at h
  split at h
  · rename_i hk
    obtain rfl := Option.some.inj h
    by_cases hblank : k = .blank
    · simp [hblank, tokenAt, Terminal.isComment]
    · simp [hblank, tokenAt, Terminal.isComment, hk]
  · rename_i hk
    split at h
    · obtain rfl := Option.some.inj h
      simp [tokenAt, Terminal.isComment, hk]
    · cases h
    · cases h

/-- Blanks and comments leave the stack as it is. -/
private theorem Progress.stack_of_after? {p q : Progress} {k : Terminal} {piece : List Char}
    (h : p.after? k piece = some q) (hk : k.isIgnored = true) : q.stack = p.stack := by
  unfold Progress.after? at h
  rw [if_pos hk] at h
  obtain rfl := Option.some.inj h
  rfl

/-- A run of the parser lays out its text, and what it gives is derived. -/
theorem Parses.laid {p : Progress} {cs : List Char} {r : Parsed} (h : Parses p cs r) (hp : IsGrown p.stack) :
    r.tree.IsDerived ∧ r.tree.root = .category .document ∧ ∃ pieces, Laid p.place cs pieces ∧
      r.tree.tokens = stackTokens p.stack ++ pieces.filter (fun t => !t.kind.isIgnored) ∧
      r.comments = p.comments.reverse ++ pieces.filter fun t => t.kind.isComment := by
  induction h with
  | done htake =>
    obtain ⟨hderived, hroot, htokens⟩ := hp.accept htake
    exact ⟨hderived, hroot, [], .nil, by simpa using htokens, by simp⟩
  | @step p q cs k n r hcut hafter _ ih =>
    have hplace : q.place = p.place.advance (cs.take n) := Progress.place_of_after? hafter
    have hlaid : ∀ {pieces}, Laid q.place (cs.drop n) pieces →
        Laid p.place cs (tokenAt p.place k (cs.take n) :: pieces) := by
      intro pieces hpieces
      rw [hplace] at hpieces
      have hlength : (cs.take n).length = n := List.length_take_of_le (cut_bounds hcut).2
      have hmatch : k.match? (cs.take n ++ cs.drop n) = some (cs.take n).length := by
        rw [List.take_append_drop, hlength]
        exact match?_of_cut hcut
      have hcons := Laid.cons hmatch hpieces
      rwa [List.take_append_drop] at hcons
    have hcomments : ∀ pieces : List (Token Terminal), q.comments.reverse ++ pieces.filter (fun t => t.kind.isComment) =
        p.comments.reverse ++ (tokenAt p.place k (cs.take n) :: pieces).filter fun t => t.kind.isComment := by
      intro pieces
      rw [Progress.comments_of_after? hafter, List.append_assoc, ← List.filter_append]
      rfl
    cases hk : k.isIgnored with
    | true =>
      have hstack := Progress.stack_of_after? hafter hk
      obtain ⟨hderived, hroot, pieces, hpieces, htokens, hr⟩ := ih (hstack ▸ hp)
      refine ⟨hderived, hroot, _, hlaid hpieces, ?_, hr.trans (hcomments pieces)⟩
      rw [htokens, hstack, List.filter_cons_of_neg (by simp [tokenAt, hk])]
    | false =>
      obtain ⟨s, stack, htake, hstack⟩ := Progress.shift_of_after? hafter hk
      obtain ⟨hgrown, hsame, hleads⟩ := hp.shift htake
      have hq : IsGrown q.stack := by
        rw [hstack]
        refine ⟨.cons hgrown.path hleads, fun f hf => ?_⟩
        rcases List.mem_cons.1 hf with rfl | hf
        · exact .inl trivial
        · exact hgrown.derived f hf
      obtain ⟨hderived, hroot, pieces, hpieces, htokens, hr⟩ := ih hq
      refine ⟨hderived, hroot, _, hlaid hpieces, ?_, hr.trans (hcomments pieces)⟩
      rw [htokens, hstack, stackTokens_cons, hsame, List.filter_cons_of_pos (by simp [tokenAt, hk]), List.append_assoc]
      rfl

/-- A parse tree is that of a document, and its text is laid out in pieces. -/
theorem exists_layout {text : List Char} {parsed : Parsed} (h : parseTree text = .ok parsed) :
    parsed.tree.IsDerived ∧ parsed.tree.root = .category .document ∧ ∃ pieces, Layout text parsed pieces := by
  obtain ⟨hderived, hroot, pieces, hlaid, htokens, hcomments⟩ :=
    (parseTree_eq_ok_iff.1 h).laid ⟨.nil, by simp⟩
  exact ⟨hderived, hroot, pieces,
    hlaid, by simpa [stackTokens, Grammar.Tree.tokensAll] using htokens, by simpa using hcomments⟩

end Parsing

/-! ### Where pieces stand -/

/-- The piece of a text between two parts of it. -/
structure IsPiece (t : Token Terminal) (x piece y : List Char) : Prop where
  token : t = tokenAt (Position.origin.advance x) t.kind piece
  fits : t.kind.match? (piece ++ y) = some piece.length

namespace IsPiece

variable {t : Token Terminal} {x piece y : List Char}

theorem start (h : IsPiece t x piece y) : t.start = Position.origin.advance x := congrArg Token.start h.token

theorem stop (h : IsPiece t x piece y) : t.stop = Position.origin.advance (x ++ piece) := by
  rw [advance_append]
  exact congrArg Token.stop h.token

theorem ne_nil (h : IsPiece t x piece y) : piece ≠ [] := by
  rintro rfl
  exact absurd (match?_bounds h.fits).1 (Nat.lt_irrefl _)

end IsPiece

/-- A piece stands between what is laid out before it and behind it. -/
theorem Laid.split {x cs : List Char} {front behind : List (Token Terminal)} {t : Token Terminal}
    (h : Laid (Position.origin.advance x) cs (front ++ t :: behind)) :
    ∃ m piece y, cs = m ++ (piece ++ y) ∧ IsPiece t (x ++ m) piece y ∧
      Laid (Position.origin.advance (x ++ m ++ piece)) y behind := by
  induction front generalizing x cs with
  | nil =>
    cases h with
    | @cons _ k piece y _ hmatch hrest =>
      refine ⟨[], piece, y, rfl, ?_, ?_⟩
      · rw [List.append_nil]
        exact ⟨rfl, hmatch⟩
      · rwa [List.append_nil, advance_append]
  | cons u front ih =>
    cases h with
    | @cons _ k first rest _ hmatch hrest =>
      rw [← advance_append] at hrest
      obtain ⟨m, piece, y, rfl, ht, hbehind⟩ := ih hrest
      refine ⟨first ++ m, piece, y, by rw [List.append_assoc], ?_, ?_⟩
      · rwa [← List.append_assoc]
      · rwa [← List.append_assoc]

/-- One of two pieces stands before the other. -/
theorem sublist_or_sublist {α : Type} {l : List α} {a b : α} (ha : a ∈ l) (hb : b ∈ l) (hne : a ≠ b) :
    [a, b] <+ l ∨ [b, a] <+ l := by
  obtain ⟨front, behind, rfl⟩ := List.append_of_mem ha
  rcases List.mem_append.1 hb with hb | hb
  · right
    exact (List.singleton_sublist.2 hb).append (List.singleton_sublist.2 List.mem_cons_self)
  · left
    have hb : b ∈ behind := (List.mem_cons.1 hb).resolve_left (Ne.symm hne)
    exact ((List.singleton_sublist.2 hb).cons_cons a).trans (List.sublist_append_right front _)

/-- Where two pieces stand, one before the other. -/
theorem Laid.split₂ {text : List Char} {pieces : List (Token Terminal)} (h : Laid .origin text pieces)
    {a b : Token Terminal} (hab : [a, b] <+ pieces) :
    ∃ x pa m pb y, text = x ++ (pa ++ (m ++ (pb ++ y))) ∧ IsPiece a x pa (m ++ (pb ++ y)) ∧
      IsPiece b (x ++ pa ++ m) pb y := by
  obtain ⟨front, behind, rfl, ha, hb⟩ := List.cons_sublist_iff.1 hab
  obtain ⟨front, between, rfl⟩ := List.append_of_mem ha
  obtain ⟨between', behind, rfl⟩ := List.append_of_mem (List.singleton_sublist.1 hb)
  rw [List.append_assoc, List.cons_append, ← List.append_assoc] at h
  obtain ⟨x, pa, rest, rfl, hpa, hrest⟩ := Laid.split (x := []) h
  obtain ⟨m, pb, y, rfl, hpb, -⟩ := hrest.split
  exact ⟨x, pa, m, pb, y, rfl, by simpa using hpa, by simpa using hpb⟩

theorem Laid.line_le {text : List Char} {pieces : List (Token Terminal)} (h : Laid .origin text pieces)
    {a b : Token Terminal} (hab : [a, b] <+ pieces) : a.stop.line ≤ b.start.line := by
  obtain ⟨x, pa, m, pb, y, -, ha, hb⟩ := h.split₂ hab
  rw [ha.stop, hb.start, advance_origin, advance_origin]
  show (x ++ pa).count '\n' + 1 ≤ (x ++ pa ++ m).count '\n' + 1
  have hcount : (x ++ pa ++ m).count '\n' = (x ++ pa).count '\n' + m.count '\n' := List.count_append
  omega

theorem IsPiece.line_le {t : Token Terminal} {x piece y : List Char} (h : IsPiece t x piece y) :
    t.start.line ≤ t.stop.line := by
  rw [h.start, h.stop, advance_origin, advance_origin]
  show x.count '\n' + 1 ≤ (x ++ piece).count '\n' + 1
  rw [List.count_append]
  omega

/-- No piece comes twice. -/
theorem Laid.nodup {text : List Char} {pieces : List (Token Terminal)} (h : Laid .origin text pieces) :
    pieces.Nodup := by
  rw [List.nodup_iff_sublist]
  intro t htt
  obtain ⟨x, pa, m, pb, y, -, ha, hb⟩ := h.split₂ htt
  have hsame := ha.start.symm.trans hb.start
  rw [List.append_assoc, advance_append] at hsame
  exact ha.ne_nil (List.append_eq_nil_iff.1 (eq_nil_of_advance hsame.symm)).1

/-! ### What pieces begin and end with -/

/-- Only blanks begin with anything but a printable ASCII character. -/
private theorem toNat_of_opensWith {k : Terminal} (hk : k ≠ .blank) {c : Char} (h : k.opensWith c = true) :
    33 ≤ c.toNat ∧ c.toNat ≤ 126 := by
  have hspelled : (k.spelling?.bind fun s => s.toList.head?).all (fun c => 33 ≤ c.toNat && c.toNat ≤ 126) = true := by
    cases k <;> decide
  have hdigit : isDigit c = true → 33 ≤ c.toNat ∧ c.toNat ≤ 126 := by
    intro hc
    have hrange : 48 ≤ c.toNat ∧ c.toNat ≤ 57 := by
      simpa [isDigit, Char.le_def, UInt32.le_iff_toNat_le] using hc
    omega
  have hname : isNameStart c = true → 33 ≤ c.toNat ∧ c.toNat ≤ 126 := by
    intro hc
    have hrange : (c = '_' ∨ 97 ≤ c.toNat ∧ c.toNat ≤ 122) ∨ 65 ≤ c.toNat ∧ c.toNat ≤ 90 := by
      simpa [isNameStart, Char.le_def, UInt32.le_iff_toNat_le] using hc
    rcases hrange with (rfl | hrange) | hrange
    · decide
    · omega
    · omega
  have hmark : c ∈ ['+', '-', '.', '/', '#', '"', '\''] → 33 ≤ c.toNat ∧ c.toNat ≤ 126 := by
    intro hc
    have hall : ['+', '-', '.', '/', '#', '"', '\''].all (fun c => 33 ≤ c.toNat && c.toNat ≤ 126) = true := by decide
    simpa using List.all_eq_true.1 hall c hc
  cases k with
  | blank => exact absurd rfl hk
  | hexConstant | intConstant | doubleConstant | baseType | identifier | lineComment | blockComment | literal =>
    grind [Terminal.opensWith]
  | stop => simp [Terminal.opensWith, Terminal.spelling?] at h
  | _ =>
    rw [of_decide_eq_true h] at hspelled
    simpa using hspelled

/-- A piece other than a blank does not begin with white space. -/
theorem IsPiece.exists_cons {t : Token Terminal} {x piece y : List Char} (h : IsPiece t x piece y)
    (ht : t.kind ≠ .blank) : ∃ c rest, piece = c :: rest ∧ isWhite c = false ∧ c ≠ '\n' := by
  obtain ⟨c, rest, rfl⟩ := List.exists_cons_of_ne_nil h.ne_nil
  have hrange := toNat_of_opensWith ht (opensWith_of_match? h.fits)
  refine ⟨c, rest, rfl, ?_, ?_⟩
  · simp [isWhite]
    omega
  · rintro rfl
    exact absurd hrange.1 (by decide)

/-- A comment up to the end of its line has no line feed. -/
private theorem not_mem_of_matchLineComment {piece y : List Char}
    (h : matchLineComment (piece ++ y) = some piece.length) : '\n' ∉ piece := by
  have hspan : ∀ cs : List Char, '\n' ∉ cs.take (spanLength (· ≠ '\n') cs) := by
    intro cs hmem
    unfold spanLength at hmem
    rw [List.prefix_iff_eq_take.1 (List.takeWhile_prefix _) |>.symm] at hmem
    simpa using List.mem_takeWhile_imp hmem
  have hpiece : piece = (piece ++ y).take piece.length := by rw [List.take_left]
  generalize piece ++ y = cs at h hpiece
  unfold matchLineComment at h
  split at h
  · rename_i cs
    rw [hpiece, ← Option.some.inj h, Nat.add_comm]
    simpa using hspan cs
  · rename_i cs
    rw [hpiece, ← Option.some.inj h, Nat.add_comm]
    simpa using hspan cs
  · cases h

/-- What is up to the end of a comment ends with a slash. -/
private theorem take_of_toCommentEnd {cs : List Char} {n : Nat} (h : toCommentEnd cs = some n) :
    ∃ front, cs.take n = front ++ ['/'] := by
  induction cs generalizing n with
  | nil => cases h
  | cons c cs ih =>
    rw [toCommentEnd_cons] at h
    split at h
    · rename_i hend
      obtain ⟨rfl, hhead⟩ := hend
      obtain ⟨cs, rfl⟩ := List.head?_eq_some_iff.1 hhead
      obtain rfl := Option.some.inj h
      exact ⟨['*'], rfl⟩
    · obtain ⟨m, hm, rfl⟩ := Option.map_eq_some_iff.1 h
      obtain ⟨front, hfront⟩ := ih hm
      exact ⟨c :: front, by rw [List.take_succ_cons, hfront]; rfl⟩

private theorem eq_append_of_matchBlockComment {piece y : List Char}
    (h : matchBlockComment (piece ++ y) = some piece.length) : ∃ front, piece = front ++ ['/'] := by
  have hpiece : piece = (piece ++ y).take piece.length := by rw [List.take_left]
  generalize piece ++ y = cs at h hpiece
  unfold matchBlockComment at h
  split at h
  · obtain ⟨n, hn, hlength⟩ := Option.map_eq_some_iff.1 h
    obtain ⟨front, hfront⟩ := take_of_toCommentEnd hn
    refine ⟨'/' :: '*' :: front, ?_⟩
    rw [hpiece, ← hlength, List.take_succ_cons, List.take_succ_cons, hfront]
    rfl
  · cases h

private theorem Terminal.isComment_cases {k : Terminal} (h : k.isComment = true) :
    k = .lineComment ∨ k = .blockComment := by
  cases k <;> simp_all [Terminal.isComment, Terminal.isIgnored]

/-! ### Places that do not open their lines -/

/-- A piece does not open a line on which another one begins before it, or a comment ends. -/
theorem Laid.not_opensLine {text : List Char} {pieces : List (Token Terminal)} (h : Laid .origin text pieces)
    {a b : Token Terminal} (hab : [a, b] <+ pieces) (ha : a.kind ≠ .blank)
    (hline : a.start.line = b.start.line ∨ a.kind.isComment = true ∧ a.stop.line = b.start.line) :
    ¬ OpensLine text b.start := by
  obtain ⟨x, pa, m, pb, y, rfl, hpa, hpb⟩ := h.split₂ hab
  have hbefore : textBefore (x ++ (pa ++ (m ++ (pb ++ y)))) b.start = lastLine (x ++ pa ++ m) := by
    rw [hpb.start, ← textBefore_append (x ++ pa ++ m) (pb ++ y)]
    simp
  unfold OpensLine
  rw [hbefore, List.all_eq_true]
  intro hwhite
  have hsame : a.start.line ≠ b.start.line := by
    intro hline
    have hfeed : '\n' ∉ pa ++ m := by
      rw [hpa.start, hpb.start, List.append_assoc] at hline
      exact not_mem_of_line_advance hline.symm
    obtain ⟨c, rest, rfl, hc, -⟩ := hpa.exists_cons ha
    rw [List.append_assoc, Text.lastLine_append_of_not_mem x hfeed] at hwhite
    rw [hwhite c (by simp)] at hc
    cases hc
  obtain hline | ⟨hcomment, hline⟩ := hline
  · exact hsame hline
  · have hfeed : '\n' ∉ m := by
      rw [hpa.stop, hpb.start] at hline
      exact not_mem_of_line_advance hline.symm
    rcases Terminal.isComment_cases hcomment with hkind | hkind
    · -- it ends on the line that it begins on
      have hmatch := hpa.fits
      rw [hkind] at hmatch
      have hpiece := not_mem_of_matchLineComment hmatch
      refine hsame ?_
      rw [← hline, hpa.start, hpa.stop, advance_origin, advance_origin, List.count_append,
        List.count_eq_zero.2 hpiece]
    · have hmatch := hpa.fits
      rw [hkind] at hmatch
      obtain ⟨front, rfl⟩ := eq_append_of_matchBlockComment hmatch
      have hslash : '\n' ∉ '/' :: m := by simpa using hfeed
      rw [← List.append_assoc, List.append_assoc _ ['/'], List.singleton_append,
        Text.lastLine_append_of_not_mem _ hslash] at hwhite
      exact absurd (hwhite '/' (by simp)) (by decide)

end ThriftGateway.Idl
