import ThriftGateway.Proofs.Idl.Cutting
import ThriftGateway.Proofs.Idl.Taking

/-!
# Texts of lexemes

A lexeme is what one token says; a literal may be written with either quote that it does not contain.  Written out and
joined by single blanks, lexemes are cut into tokens that stand for them, all on the first line, and these are taken one
after the other (`run_spelled`).  Blanks stand in front of pieces here (`behind`), so a step of the parser reads a blank
and then a piece.
-/

namespace ThriftGateway.Idl

open Grammar (Action Position Token)

/-! ### Lexemes -/

/-- A text that can be written in quotes on one line. -/
structure IsQuotable (text : String) : Prop where
  oneLine : '\n' ∉ text.toList
  quote : '"' ∉ text.toList ∨ '\'' ∉ text.toList

/-- A piece of a text that is written as it is, or a text that is written in quotes. -/
inductive Lexeme where
  | word (kind : Terminal) (text : String)
  | quoted (text : String)
  deriving DecidableEq, Repr

instance (text : String) : Decidable (IsQuotable text) :=
  decidable_of_iff ('\n' ∉ text.toList ∧ ('"' ∉ text.toList ∨ '\'' ∉ text.toList))
    ⟨fun h => ⟨h.1, h.2⟩, fun h => ⟨h.oneLine, h.quote⟩⟩

namespace Lexeme

/-- The terminal that a lexeme is read as. -/
def kind : Lexeme → Terminal
  | word kind _ => kind
  | quoted _ => .literal

/-- A word of the grammar or a mark. -/
def fixed (k : Terminal) : Lexeme := word k (k.spelling?.getD "")

/-- What a lexeme may be written as. -/
inductive Spells : Lexeme → String → Prop
  | word (kind : Terminal) (text : String) : Spells (word kind text) text
  | quoted {q : Char} {text : String} : q ∈ ['"', '\''] → q ∉ text.toList →
      Spells (quoted text) (String.ofList (q :: (text.toList ++ [q])))

/-- A word is one of its terminal, and a text in quotes can be quoted. -/
def IsSound : Lexeme → Prop
  | word kind text => kind ≠ .literal ∧ Written kind text.toList
  | quoted text => IsQuotable text

/-- The lexeme that a token stands for. -/
def ofToken (token : Token Terminal) : Lexeme :=
  if token.kind = .literal then quoted (unquote token.text) else word token.kind token.text

/-- One way of writing a lexeme: in double quotes, if it does not contain any. -/
def spelling : Lexeme → String
  | word _ text => text
  | quoted text =>
    let q := if '"' ∈ text.toList then '\'' else '"'
    String.ofList (q :: (text.toList ++ [q]))

/-- A sound lexeme can be written. -/
theorem IsSound.spells {l : Lexeme} (h : l.IsSound) : l.Spells l.spelling := by
  cases l with
  | word kind text => exact .word kind text
  | quoted text =>
    by_cases hdouble : '"' ∈ text.toList
    · simpa [spelling, hdouble] using Spells.quoted (q := '\'') (by simp) (h.quote.resolve_left (not_not_intro hdouble))
    · simpa [spelling, hdouble] using Spells.quoted (q := '"') (by simp) hdouble

theorem isSound_fixed {k : Terminal} (h : k.spelling? ≠ none) : (fixed k).IsSound := by
  obtain ⟨s, hs⟩ := Option.ne_none_iff_exists'.1 h
  refine ⟨?_, ?_⟩
  · rintro rfl
    cases hs
  · rw [hs]
    exact Written.spelled hs

end Lexeme

/-- A piece that is no literal stands on one line. -/
private theorem Written.notMem {k : Terminal} {cs : List Char} (h : Written k cs) (hk : k ≠ .literal) : '\n' ∉ cs := by
  cases h with
  | number hnumber hmatch => exact notMem_of_matchNumber hnumber hmatch
  | base hname =>
    have hall : ∀ name ∈ baseTypeNames, '\n' ∉ name.toList := by decide
    exact hall _ hname
  | identifier hname =>
    obtain ⟨c, cs, hcs, hc, hall⟩ := forall_mem_of_matchIdentifier hname.whole
    rw [hcs, List.mem_cons, not_or]
    refine ⟨?_, fun hmem => absurd (hall _ hmem) (by decide)⟩
    rintro rfl
    exact absurd hc (by decide)
  | quoted => exact absurd rfl hk
  | spelled hs =>
    have hall : ∀ k : Terminal, ∀ s ∈ k.spelling?, '\n' ∉ s.toList := by
      intro k
      cases k <;> decide
    exact hall _ _ hs

/-- A sound lexeme is written as a piece for its terminal, on one line. -/
theorem Lexeme.Spells.written {l : Lexeme} {piece : String} (h : l.Spells piece) (hl : l.IsSound) :
    Written l.kind piece.toList ∧ '\n' ∉ piece.toList := by
  cases h with
  | word => exact ⟨hl.2, hl.2.notMem hl.1⟩
  | quoted hq hnot =>
    rw [String.toList_ofList]
    refine ⟨Written.quoted hq hnot, ?_⟩
    have hline := hl.oneLine
    have hquote : ∀ q ∈ ['"', '\''], '\n' ≠ q := by simp
    simp only [List.mem_cons, List.mem_append, List.not_mem_nil, or_false, not_or]
    exact ⟨hquote _ hq, hline, hquote _ hq⟩

/-! ### Steps of the parser -/

/-- A piece is no blank and no comment. -/
theorem Written.isIgnored {k : Terminal} {cs : List Char} (h : Written k cs) : k.isIgnored = false := by
  cases h with
  | number hk =>
    revert hk
    cases k <;> decide
  | base | identifier | quoted => rfl
  | spelled hs => cases k <;> cases hs <;> rfl

/-- In a state that there is, the terminals are tried that it accepts. -/
theorem modeOf_of_lt {s : Nat} (h : s < automaton.states.size) : modeOf s = Mode.ofAccepted (acceptedIn s) := by
  unfold modeOf modes
  rw [List.getElem?_toArray, List.getElem?_map, List.getElem?_range h]
  rfl

/-- A state that does something is there. -/
theorem lt_of_action {s : Nat} {t : Terminal} {a : Action} (h : automaton.action? thrift s t = some a) :
    s < automaton.states.size := by
  obtain ⟨row, hrow, -⟩ := Option.bind_eq_some_iff.1 h
  exact (Array.getElem?_eq_some_iff.1 hrow).1

/-- A state that does something is tried in the mode of what it accepts. -/
theorem modeOf_of_action {s : Nat} {t : Terminal} {a : Action} (h : automaton.action? thrift s t = some a) :
    modeOf s = Mode.ofAccepted (acceptedIn s) :=
  modeOf_of_lt (lt_of_action h)

section Step

-- the table is not to be looked into when one step of the parser is spelled out
attribute [local irreducible] automaton states thrift Grammar.Automaton.action? take Mode.cut modeOf

/-- A terminal that is taken is accepted. -/
private theorem accepted_of_take {fuel : Nat} {stack rest : List Frame} {k : Terminal} {s : Nat}
    (h : take (fuel + 1) stack k = .shift s rest) :
    k ∈ acceptedIn (topState stack) ∧ modeOf (topState stack) = Mode.ofAccepted (acceptedIn (topState stack)) := by
  rw [take_succ] at h
  cases ha : automaton.action? thrift (topState stack) k with
  | none =>
    rw [ha] at h
    cases h
  | some a =>
    refine ⟨List.mem_filter.2 ⟨mem_terminals k, ?_⟩, modeOf_of_action ha⟩
    rw [ha]
    rfl

/-- The token of a text at a place. -/
def tokenAt (place : Position) (k : Terminal) (cs : List Char) : Token Terminal :=
  ⟨k, String.ofList cs, place, place.advance cs⟩

/-- One step of the parser at a character. -/
theorem run_succ (fuel : Nat) (p : Progress) (c : Char) (cs : List Char) :
    run (fuel + 1) p (c :: cs) =
      match (modeOf (topState p.stack)).cut (c :: cs) with
      | none => .error (unmatched (modeOf (topState p.stack)) p.place (c :: cs))
      | some (kind, n) =>
        let token := tokenAt p.place kind ((c :: cs).take n)
        let stop := p.place.advance ((c :: cs).take n)
        if kind.isIgnored then
          let comments := if kind = .blank then p.comments else token :: p.comments
          run fuel { p with place := stop, comments } ((c :: cs).drop n)
        else
          match take (takeFuel p.stack) p.stack kind with
          | .shift s stack =>
            run fuel { p with stack := (s, .leaf token) :: stack, place := stop, last := p.place } ((c :: cs).drop n)
          | .accept _ => .error (.unexpectedToken token.text [] p.place)
          | .blocked s => .error (.unexpectedToken token.text (acceptedIn s) p.place) := by
  rfl

/-- One step of the parser at the end. -/
theorem run_end (fuel : Nat) (p : Progress) :
    run (fuel + 1) p [] =
      match take (takeFuel p.stack) p.stack .stop with
      | .accept tree => .ok ⟨tree, p.comments.reverse⟩
      | .shift s _ | .blocked s => .error (.unexpectedToken "" (acceptedIn s) p.last) := by
  rfl

variable {fuel : Nat} {p : Progress} {k : Terminal} {cs rest : List Char} {s : Nat} {stack : List Frame}

/-- A piece whose terminal is taken becomes a token on the stack. -/
private theorem run_piece (hcs : Written k cs) (hrest : AtBlank rest)
    (htake : take (takeFuel p.stack) p.stack k = .shift s stack) :
    run (fuel + 1) p (cs ++ rest) =
      run fuel { p with
        stack := (s, .leaf (tokenAt p.place k cs)) :: stack
        place := p.place.advance cs
        last := p.place } rest := by
  obtain ⟨hk, hmode⟩ := accepted_of_take htake
  have hcut := cut_written hk hcs hrest
  obtain ⟨c, hc, -⟩ := hcs.head?
  have hignored := hcs.isIgnored
  obtain ⟨cs, rfl⟩ := List.head?_eq_some_iff.1 hc
  rw [List.cons_append] at hcut ⊢
  rw [run_succ, hmode, hcut]
  dsimp only
  rw [hignored, if_neg Bool.false_ne_true, htake]
  dsimp only
  rw [← List.cons_append, List.take_left, List.drop_left]

/-- A blank in front of a piece whose terminal is taken only moves the place. -/
private theorem run_blank (hcs : Written k cs) (htake : take (takeFuel p.stack) p.stack k = .shift s stack) :
    run (fuel + 1) p (' ' :: (cs ++ rest)) = run fuel { p with place := p.place.after ' ' } (cs ++ rest) := by
  obtain ⟨-, hmode⟩ := accepted_of_take htake
  obtain ⟨c, hc, hblank⟩ := hcs.head?
  obtain ⟨cs, rfl⟩ := List.head?_eq_some_iff.1 hc
  have hcut : (Mode.ofAccepted (acceptedIn (topState p.stack))).cut ([' '] ++ c :: (cs ++ rest)) = some (.blank, 1) :=
    cut_blanks _ (by simp) (by simp [isBlank]) (by simpa using hblank)
  rw [List.cons_append, run_succ, hmode]
  rw [List.cons_append, List.nil_append] at hcut
  rw [hcut]
  rfl

end Step

/-! ### Runs of the parser -/

section Run

attribute [local irreducible] take takeFuel

/-- Pieces with a blank in front of each. -/
def behind (pieces : List (Lexeme × String)) : List Char := pieces.flatMap fun p => ' ' :: p.2.toList

/-- The tokens of pieces from a place on, with a blank in front of each but the first. -/
def tokensFrom : Position → List (Lexeme × String) → List (Token Terminal)
  | _, [] => []
  | place, (l, piece) :: pieces =>
    tokenAt place l.kind piece.toList :: tokensFrom ((place.advance piece.toList).after ' ') pieces

private theorem atBlank_behind (pieces : List (Lexeme × String)) : AtBlank (behind pieces) := by
  cases pieces with
  | nil => exact atBlank_nil
  | cons piece pieces => exact atBlank_cons _

/-- The first token of an accepted text is shifted. -/
private theorem shift_of_takeAll {fuel : Nat} {stack : List Frame} {token : Token Terminal}
    {toks : List (Token Terminal)} {tree : Tree} (h : takeAll fuel stack (token :: toks) = some tree) :
    ∃ s rest, take fuel stack token.kind = .shift s rest ∧
      takeAll (takeFuel ((s, .leaf token) :: rest)) ((s, .leaf token) :: rest) toks = some tree := by
  rw [takeAll] at h
  cases htake : take fuel stack token.kind with
  | shift s rest =>
    rw [htake] at h
    exact ⟨s, rest, rfl, h⟩
  | accept | blocked =>
    rw [htake] at h
    cases h

/-- The end of an accepted text gives its tree. -/
theorem run_nil {fuel : Nat} {p : Progress} {tree : Tree}
    (h : takeAll (takeFuel p.stack) p.stack [] = some tree) :
    run (fuel + 1) p [] = .ok ⟨tree, p.comments.reverse⟩ := by
  have htake : take (takeFuel p.stack) p.stack .stop = .accept tree := by
    rw [takeAll] at h
    cases htake : take (takeFuel p.stack) p.stack .stop with
    | accept t =>
      rw [htake] at h
      rw [Option.some.inj h]
    | shift | blocked =>
      rw [htake] at h
      cases h
  rw [run_end, htake]

/-- Pieces with a blank between them are read as their tokens. -/
theorem run_spelled {tree : Tree} : (pieces : List (Lexeme × String)) → (l : Lexeme) → (piece : String) →
    (∀ q ∈ (l, piece) :: pieces, Written q.1.kind q.2.toList) → (p : Progress) → (fuel : Nat) →
    (piece.toList ++ behind pieces).length < fuel →
    takeAll (takeFuel p.stack) p.stack (tokensFrom p.place ((l, piece) :: pieces)) = some tree →
    run fuel p (piece.toList ++ behind pieces) = .ok ⟨tree, p.comments.reverse⟩
  | pieces, l, piece, hwritten, p, fuel, hfuel, haccept => by
    have hpiece := hwritten (l, piece) List.mem_cons_self
    obtain ⟨s, stack, htake, hrest⟩ := shift_of_takeAll haccept
    have hlength : 0 < piece.toList.length := by
      obtain ⟨c, hc, -⟩ := hpiece.head?
      obtain ⟨cs, hcs⟩ := List.head?_eq_some_iff.1 hc
      rw [hcs]
      exact Nat.zero_lt_succ _
    rw [List.length_append] at hfuel
    obtain ⟨fuel, rfl⟩ : ∃ n, fuel = n + 1 + 1 := ⟨fuel - 2, by omega⟩
    rw [run_piece hpiece (atBlank_behind pieces) htake]
    match pieces with
    | [] => exact run_nil hrest
    | (l', piece') :: pieces =>
      obtain ⟨s', stack', htake', -⟩ := shift_of_takeAll hrest
      have hpiece' := hwritten (l', piece') (by simp)
      have hbehind : behind ((l', piece') :: pieces) = ' ' :: (piece'.toList ++ behind pieces) := rfl
      rw [hbehind, List.length_cons] at hfuel
      rw [hbehind, run_blank hpiece' htake']
      exact run_spelled pieces l' piece' (fun q hq => hwritten q (List.mem_cons_of_mem _ hq)) _ fuel (by omega) hrest

end Run

/-! ### Whole texts -/

private theorem advance_line {cs : List Char} (h : '\n' ∉ cs) (p : Position) : (p.advance cs).line = p.line := by
  induction cs generalizing p with
  | nil => rfl
  | cons c cs ih =>
    rw [List.mem_cons, not_or] at h
    show ((p.after c).advance cs).line = p.line
    rw [ih h.2, Position.after, if_neg (Ne.symm h.1)]

theorem Lexeme.Spells.ofToken {l : Lexeme} {piece : String} (h : l.Spells piece) (hl : l.IsSound) (place : Position) :
    Lexeme.ofToken (tokenAt place l.kind piece.toList) = l := by
  unfold Lexeme.ofToken tokenAt
  cases h with
  | word kind =>
    rw [String.ofList_toList]
    exact if_neg hl.1
  | quoted hq hnot =>
    simp [Lexeme.kind, unquote]

/-- The tokens of pieces stand for the lexemes, and are all on one line. -/
theorem tokensFrom_stand {pieces : List (Lexeme × String)} (h : ∀ q ∈ pieces, q.1.IsSound ∧ q.1.Spells q.2)
    (place : Position) :
    (tokensFrom place pieces).map Lexeme.ofToken = pieces.map Prod.fst ∧
      ∀ token ∈ tokensFrom place pieces, token.start.line = place.line := by
  induction pieces generalizing place with
  | nil => exact ⟨rfl, by simp [tokensFrom]⟩
  | cons q pieces ih =>
    obtain ⟨hsound, hspells⟩ := h q List.mem_cons_self
    have hline : ((place.advance q.2.toList).after ' ').line = place.line :=
      advance_line (hspells.written hsound).2 place
    obtain ⟨hmap, hlines⟩ := ih (fun r hr => h r (List.mem_cons_of_mem _ hr)) ((place.advance q.2.toList).after ' ')
    constructor
    · simp only [tokensFrom, List.map_cons, hmap, hspells.ofToken hsound]
    · intro token htoken
      rcases List.mem_cons.1 htoken with rfl | htoken
      · rfl
      · rw [hlines token htoken, hline]

private theorem intercalate_toList (l : Lexeme) (piece : String) (pieces : List (Lexeme × String)) :
    (" ".intercalate (((l, piece) :: pieces).map Prod.snd)).toList = piece.toList ++ behind pieces := by
  induction pieces generalizing l piece with
  | nil => simp [behind]
  | cons q pieces ih =>
    have hq := ih q.1 q.2
    simp only [List.map_cons, String.toList_intercalate] at hq ⊢
    rw [List.intercalate_cons_cons, hq, List.append_assoc]
    rfl

/-- Sound lexemes, written out with single blanks between them, are parsed as the tree that their tokens give. -/
theorem parseTree_spelled {pieces : List (Lexeme × String)} (h : ∀ q ∈ pieces, q.1.IsSound ∧ q.1.Spells q.2)
    (hne : pieces ≠ []) {tree : Tree} (htree : Accepts [] (tokensFrom .origin pieces) tree) :
    parseTree (" ".intercalate (pieces.map Prod.snd)).toList = .ok ⟨tree, []⟩ := by
  match pieces, hne with
  | (l, piece) :: pieces, _ =>
    rw [parseTree, intercalate_toList]
    refine run_spelled pieces l piece (fun q hq => ?_) {} _ (Nat.lt_succ_self _) (htree _ (weight_lt_takeFuel _))
    exact ((h q hq).2.written (h q hq).1).1

end ThriftGateway.Idl
