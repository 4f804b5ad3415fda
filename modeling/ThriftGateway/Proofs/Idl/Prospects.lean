import ThriftGateway.Idl.Parser

/-!
# What the states of the Thrift automaton expect

A state expects the items of its kernel and all productions of the categories that these open, each with the terminals
that may follow.  That every row of the table does what its items ask for is decided once (`rows_meet`): it shifts and
moves to a state with the item one symbol further, and it reduces a finished item on all that may follow.  What a run
needs is read off from that: `Expects.shift`, `Expects.move`, `Expects.opens` and `Expects.finish`.
-/

namespace ThriftGateway.Idl

open Grammar (Action Item Production Prospect State)

/-! ### Rules -/

/-- The symbols of a rule: rule 0 derives whole texts, the other rules are the productions. -/
def ruleSymbols : Nat → List Piece
  | 0 => [.category .document]
  | n + 1 => (productions[n]?).elim [] Production.symbols

/-- The rules of a category, with their symbols. -/
def rulesOf (c : Category) : List (Nat × List Piece) :=
  (productions.zipIdx.filter fun p => p.1.category = c).map fun p => (p.2 + 1, p.1.symbols)

theorem mem_rulesOf {n : Nat} {p : Production Terminal Category} (h : productions[n]? = some p) :
    (n + 1, p.symbols) ∈ rulesOf p.category := by
  refine List.mem_map.2 ⟨(p, n), List.mem_filter.2 ⟨?_, by simp⟩, rfl⟩
  exact List.mem_zipIdx_iff_getElem?.2 h

private theorem ruleSymbols_of_mem_rulesOf {c : Category} {r : Nat × List Piece} (h : r ∈ rulesOf c) :
    ruleSymbols r.1 = r.2 := by
  obtain ⟨⟨p, n⟩, hp, rfl⟩ := List.mem_map.1 h
  have hn : productions[n]? = some p := List.mem_zipIdx_iff_getElem?.1 (List.mem_filter.1 hp).1
  show (productions[n]?).elim [] Production.symbols = p.symbols
  rw [hn]
  rfl

/-- The rules of all categories, found by the number of the category. -/
def ruleTable : List (List (Nat × List Piece)) := categories.map rulesOf

theorem categories_number (c : Category) : categories[c.number]? = some c := by cases c <;> rfl

private theorem ruleTable_getD (c : Category) : ruleTable.getD c.number [] = rulesOf c := by
  rw [List.getD_eq_getElem?_getD, ruleTable, List.getElem?_map, categories_number]
  rfl

/-- What has not been read of an item. -/
def unread (i : Item) : List Piece := (ruleSymbols i.production).drop i.dot

/-- An item one symbol further. -/
def next (i : Item) : Item := { i with dot := i.dot + 1 }

theorem unread_next {i : Item} {x : Piece} {rest : List Piece} (h : unread i = x :: rest) : unread (next i) = rest := by
  unfold unread next at *
  rw [← List.drop_drop, h]
  rfl

/-! ### Terminals that come first -/

/-- The terminals that categories begin with, as bits by their numbers.  They are written out: `firstSets_meet` says
that no rule of a category begins with more. -/
def firstSets : List Nat :=
  [28020224, 28020224, 32768, 512, 2048, 27984896, 2097152, 131072, 16777216, 8, 8, 524288, 8388608, 1024, 838873356,
    65536, 973340684, 973340684, 1048576, 838873356, 256, 12288, 973078540, 134217728, 838860812, 8, 4, 268435456,
    536870912, 33554432, 77380714795, 257, 2, 32, 71303168, 68719476736, 77380714795, 8589934592, 77380714795,
    77380714795, 34359738368, 8, 8, 2201170739200]

/-- The terminals that symbols begin with, or that follow if there are no symbols. -/
def firstOf (follow : Nat) : List Piece → Nat
  | [] => follow
  | .terminal t :: _ => 1 <<< t.number
  | .category c :: _ => firstSets.getD c.number 0

/-- A set has all terminals of another one. -/
def covers (big small : Nat) : Bool := small &&& big == small

theorem testBit_of_covers {big small n : Nat} (h : covers big small = true) (hn : small.testBit n = true) :
    big.testBit n = true := by
  unfold covers at h
  rw [← eq_of_beq h, Nat.testBit_and, Bool.and_eq_true] at hn
  exact hn.2

/-- A terminal can come first of symbols that `a` follows. -/
def MayBegin (t a : Terminal) (symbols : List Piece) : Prop := ∀ follow : Nat, follow.testBit a.number = true →
  (firstOf follow symbols).testBit t.number = true

theorem mayBegin_nil (a : Terminal) : MayBegin a a [] := fun _ h => h

/-! ### Prospects -/

/-- The categories that are to be opened, each with what may follow, joined to those that have been opened. -/
def openAll : (fuel : Nat) → (pending opened : List (Category × Nat)) → List (Category × Nat)
  | 0, _, opened => opened
  | _, [], opened => opened
  | fuel + 1, (c, follow) :: pending, opened =>
    let known := (opened.lookup c).getD 0
    if covers known follow then openAll fuel pending opened
    else
      let follow := known ||| follow
      openAll fuel (openings follow ((ruleTable.getD c.number []).map (·.2)) ++ pending)
        ((c, follow) :: opened.filter (·.1 ≠ c))
where
  /-- The categories at the front of symbols, with what may follow them. -/
  openings (follow : Nat) (symbols : List (List Piece)) : List (Category × Nat) :=
    symbols.filterMap fun ss =>
      match ss with
      | .category d :: rest => some (d, firstOf follow rest)
      | _ => none

/-- The categories that a kernel opens, each with what may follow. -/
def openedBy (kernel : List Prospect) : List (Category × Nat) :=
  openAll 1000 (kernel.flatMap fun q => openAll.openings q.follow [unread q.item]) []

/-- The prospects of a kernel, its own and those of the categories that it opens, each with what has not been read. -/
def prospects (kernel : List Prospect) (opened : List (Category × Nat)) : List (Prospect × List Piece) :=
  kernel.map (fun q => (q, unread q.item)) ++
    opened.flatMap fun o => (ruleTable.getD o.1.number []).map fun r => (⟨⟨r.1, 0⟩, o.2⟩, r.2)

/-- The state has the item in its kernel with all that may follow. -/
def holds (s : Nat) (i : Item) (follow : Nat) : Bool :=
  (states[s]?).any fun row => row.kernel.any fun q => q.item = i && covers q.follow follow

/-- What is done once a rule has been read. -/
def finishing (rule : Nat) : Action := if rule = 0 then .accept else .reduce (rule - 1)

/-- A row does what a prospect asks for. -/
def meets (row : State) (opened : List (Category × Nat)) (q : Prospect) (rest : List Piece) : Bool :=
  match rest with
  | [] => (Terminal.all ++ [Terminal.stop]).all fun t =>
      !q.follow.testBit t.number || row.action? t.number = some (finishing q.item.production)
  | .terminal t :: _ => (row.shifts.lookup t.number).any fun s => holds s (next q.item) q.follow
  | .category c :: rest =>
    ((row.moves.lookup c.number).any fun s => holds s (next q.item) q.follow) &&
      covers ((opened.lookup c).getD 0) (firstOf q.follow rest)

/-- All rows do what their prospects ask for. -/
theorem rows_meet : (states.toList.all fun row =>
    let opened := openedBy row.kernel
    (prospects row.kernel opened).all fun q => meets row opened q.1 q.2) = true := by
  decide +kernel

/-- Each category begins with all that its rules begin with. -/
theorem firstSets_meet : (categories.all fun c => (rulesOf c).all fun r =>
    r.2.isEmpty || covers (firstSets.getD c.number 0) (firstOf 0 r.2)) = true := by
  decide +kernel

theorem mem_terminals (t : Terminal) : t ∈ Terminal.all ++ [Terminal.stop] := by
  cases t <;> decide

/-! ### What a state expects -/

/-- The state has the item, and the terminal may follow its rule. -/
def Expects (s : Nat) (i : Item) (a : Terminal) : Prop :=
  ∃ row, states[s]? = some row ∧
    ∃ q ∈ prospects row.kernel (openedBy row.kernel), q.1.item = i ∧ q.1.follow.testBit a.number = true

private theorem unread_of_mem_prospects {row : State} {q : Prospect × List Piece}
    (h : q ∈ prospects row.kernel (openedBy row.kernel)) : unread q.1.item = q.2 := by
  rcases List.mem_append.1 h with h | h
  · obtain ⟨q, -, rfl⟩ := List.mem_map.1 h
    rfl
  · obtain ⟨o, -, h⟩ := List.mem_flatMap.1 h
    obtain ⟨r, hr, rfl⟩ := List.mem_map.1 h
    rw [ruleTable_getD] at hr
    exact ruleSymbols_of_mem_rulesOf hr

private theorem expects_of_holds {s : Nat} {i : Item} {follow : Nat} (h : holds s i follow = true) {a : Terminal}
    (ha : follow.testBit a.number = true) : Expects s i a := by
  unfold holds at h
  rw [Option.any_eq_true] at h
  obtain ⟨row, hrow, h⟩ := h
  obtain ⟨q, hq, h⟩ := List.any_eq_true.1 h
  rw [Bool.and_eq_true, decide_eq_true_iff] at h
  refine ⟨row, hrow, (q, unread q.item), ?_, h.1, testBit_of_covers h.2 ha⟩
  exact List.mem_append_left _ (List.mem_map_of_mem hq)

/-- What is known of an item that a state expects. -/
private theorem Expects.exists_meets {s : Nat} {i : Item} {a : Terminal} (h : Expects s i a) :
    ∃ row follow, states[s]? = some row ∧ follow.testBit a.number = true ∧
      meets row (openedBy row.kernel) ⟨i, follow⟩ (unread i) = true := by
  obtain ⟨row, hrow, q, hq, rfl, ha⟩ := h
  refine ⟨row, q.1.follow, hrow, ha, ?_⟩
  have hrows := List.all_eq_true.1 rows_meet row (Array.mem_toList_iff.2 (Array.mem_of_getElem? hrow))
  rw [unread_of_mem_prospects hq]
  exact List.all_eq_true.1 hrows q hq

section

variable {s : Nat} {i : Item} {a : Terminal} {rest : List Piece}

/-- A terminal that comes next is shifted. -/
theorem Expects.shift (h : Expects s i a) {t : Terminal} (hi : unread i = .terminal t :: rest) :
    ∃ s', automaton.action? thrift s t = some (.shift s') ∧ Expects s' (next i) a := by
  obtain ⟨row, follow, hrow, ha, hmeets⟩ := h.exists_meets
  rw [hi] at hmeets
  obtain ⟨s', hs', hholds⟩ := (Option.any_eq_true _ _).1 hmeets
  refine ⟨s', ?_, expects_of_holds hholds ha⟩
  show ((states[s]?).bind fun row => row.action? t.number) = _
  rw [hrow]
  show row.action? t.number = _
  unfold State.action?
  rw [hs']

/-- Once a category that comes next has been read, the state moves. -/
theorem Expects.move (h : Expects s i a) {c : Category} (hi : unread i = .category c :: rest) :
    ∃ s', automaton.move? thrift s c = some s' ∧ Expects s' (next i) a := by
  obtain ⟨row, follow, hrow, ha, hmeets⟩ := h.exists_meets
  rw [hi] at hmeets
  obtain ⟨s', hs', hholds⟩ := (Option.any_eq_true _ _).1 (Bool.and_eq_true _ _ ▸ hmeets).1
  refine ⟨s', ?_, expects_of_holds hholds ha⟩
  show ((states[s]?).bind fun row => row.moves.lookup c.number) = _
  rw [hrow]
  exact hs'

/-- A category that comes next may begin with any of its productions, before any terminal that can come after it. -/
theorem Expects.opens (h : Expects s i a) {n : Nat} {p : Production Terminal Category}
    (hp : productions[n]? = some p) (hi : unread i = .category p.category :: rest) {b : Terminal}
    (hb : MayBegin b a rest) : Expects s ⟨n + 1, 0⟩ b := by
  obtain ⟨row, follow, hrow, ha, hmeets⟩ := h.exists_meets
  rw [hi] at hmeets
  have hcovers := (Bool.and_eq_true _ _ ▸ hmeets).2
  have hbit := testBit_of_covers hcovers (hb follow ha)
  cases hl : (openedBy row.kernel).lookup p.category with
  | none =>
    rw [hl] at hbit
    simp at hbit
  | some f =>
    rw [hl] at hbit
    obtain ⟨before, behind, hopened, -⟩ := List.lookup_eq_some_iff.1 hl
    refine ⟨row, hrow, (⟨⟨n + 1, 0⟩, f⟩, p.symbols), List.mem_append_right _ ?_, rfl, hbit⟩
    refine List.mem_flatMap.2 ⟨(p.category, f), by simp [hopened], ?_⟩
    rw [ruleTable_getD]
    exact List.mem_map.2 ⟨_, mem_rulesOf hp, rfl⟩

/-- A rule that has been read is reduced, or the text accepted. -/
theorem Expects.finish (h : Expects s i a) (hi : unread i = []) :
    automaton.action? thrift s a = some (finishing i.production) := by
  obtain ⟨row, follow, hrow, ha, hmeets⟩ := h.exists_meets
  rw [hi] at hmeets
  have haction := List.all_eq_true.1 hmeets a (mem_terminals a)
  rw [ha, Bool.not_true, Bool.false_or, decide_eq_true_iff] at haction
  show ((states[s]?).bind fun row => row.action? a.number) = _
  rw [hrow]
  exact haction

end

/-- At first, a whole text is expected. -/
theorem expects_start : Expects 0 ⟨0, 0⟩ .stop := by
  have hholds : holds 0 ⟨0, 0⟩ (1 <<< Terminal.stop.number) = true := by decide +kernel
  exact expects_of_holds hholds (by decide)

end ThriftGateway.Idl
