import Mathlib.Data.List.TakeWhile
import ThriftGateway.Request.Parser

/-!
# How literals are spelled

The whole number of a literal consists of digits behind a sign that may be left out, and a bare word begins as names do.
The tokens of a request are spelled so (`isSpelled_of_cutToken`), and therefore every literal that a text is
(`isSpelled_of_parseLiteral`).
-/

namespace ThriftGateway.Request

open Text (isDigit isNameStart isNamePart)

/-- A minus sign, which may be left out, and digits. -/
def IsWholeNumber (s : String) : Prop :=
  ∃ sign digits, (sign = [] ∨ sign = ['-']) ∧ digits ≠ [] ∧ (∀ c ∈ digits, isDigit c = true) ∧ s.toList = sign ++ digits

/-- A text that begins as names do. -/
def BeginsName (s : String) : Prop := ∃ c cs, isNameStart c = true ∧ s.toList = c :: cs

/-- A whole number or a name is spelled as it must be; any other token may say anything. -/
def Token.IsSpelled : Token → Prop
  | .int s => IsWholeNumber s
  | .name s => BeginsName s
  | _ => True

/-- A whole number or a bare word is spelled as it must be.  What stands in lists and objects is not looked at. -/
def Literal.IsSpelled : Literal → Prop
  | .int s => IsWholeNumber s
  | .word s => BeginsName s
  | _ => True

/-! ### Tokens -/

private theorem Cut.bind_eq_ok {α β : Type} {r : Cut α} {k : α → Cut β} {b : β} :
    (r >>= k) = .ok b ↔ ∃ a, r = .ok a ∧ k a = .ok b := by
  cases r with
  | error e => exact ⟨nofun, nofun⟩
  | ok a =>
    constructor
    · intro h
      exact ⟨a, rfl, h⟩
    · rintro ⟨_, ⟨⟩, h⟩
      exact h

private theorem forall_of_cutDigits {cs ds rest : List Char} (h : cutDigits cs = .ok (ds, rest)) :
    ds ≠ [] ∧ ∀ c ∈ ds, isDigit c = true := by
  unfold cutDigits at h
  split at h
  · rename_i hhead
    cases h
    refine ⟨fun hnil => ?_, fun c hc => List.mem_takeWhile_imp hc⟩
    cases cs with
    | nil => cases hhead
    | cons c cs =>
      have hc : isDigit c = true := by simpa using hhead
      rw [List.takeWhile_cons, if_pos hc] at hnil
      cases hnil
  · cases h

private theorem forall_of_cutWhole {cs ds rest : List Char} (h : cutWhole cs = .ok (ds, rest)) :
    ds ≠ [] ∧ ∀ c ∈ ds, isDigit c = true := by
  unfold cutWhole at h
  split at h
  · split at h
    · cases h
    · cases h
      exact ⟨List.cons_ne_nil _ _, List.forall_mem_singleton.2 (by decide)⟩
  · exact forall_of_cutDigits h

private theorem isSpelled_of_cutNumber {cs rest : List Char} {t : Token} (h : cutNumber cs = .ok (t, rest)) :
    t.IsSpelled := by
  unfold cutNumber at h
  split at h
  rename_i sign body hsplit
  have hsign : sign = [] ∨ sign = ['-'] := by
    split at hsplit
    · cases hsplit
      exact Or.inr rfl
    · cases hsplit
      exact Or.inl rfl
  obtain ⟨⟨whole, cs₁⟩, hwhole, h⟩ := Cut.bind_eq_ok.1 h
  obtain ⟨⟨fraction, cs₂⟩, -, h⟩ := Cut.bind_eq_ok.1 h
  obtain ⟨⟨exponent, cs₃⟩, -, h⟩ := Cut.bind_eq_ok.1 h
  obtain ⟨hne, hdigits⟩ := forall_of_cutWhole hwhole
  dsimp only at h
  split at h
  · cases h
  · cases h
    split
    · rename_i hempty
      rw [Bool.and_eq_true, List.isEmpty_iff, List.isEmpty_iff] at hempty
      obtain ⟨rfl, rfl⟩ := hempty
      exact ⟨sign, whole, hsign, hne, hdigits, by rw [String.toList_ofList, List.append_nil, List.append_nil]⟩
    · exact trivial

theorem isSpelled_of_cutToken {cs rest : List Char} {t : Token} (h : cutToken cs = .ok (t, rest)) : t.IsSpelled := by
  unfold cutToken at h
  split at h
  · cases h
  · cases h
    exact trivial
  · cases h
  · obtain ⟨⟨lines, behind⟩, -, h⟩ := Cut.bind_eq_ok.1 h
    cases h
    exact trivial
  · obtain ⟨⟨ds, behind⟩, -, h⟩ := Cut.bind_eq_ok.1 h
    cases h
    exact trivial
  · rename_i c cs _ _ _ _
    split at h
    · cases h
      exact trivial
    · split at h
      · exact isSpelled_of_cutNumber h
      · split at h
        · rename_i hname
          cases h
          have hpart : isNamePart c = true := by rw [isNamePart, hname, Bool.true_or]
          exact ⟨c, cs.takeWhile isNamePart, hname, by rw [String.toList_ofList, List.takeWhile_cons, if_pos hpart]⟩
        · split at h
          · cases h
          · split at h <;> cases h

private theorem isSpelled_of_firstToken {cs rest : List Char} {t : Token} (h : firstToken cs = .ok (some t, rest)) :
    t.IsSpelled := by
  unfold firstToken at h
  split at h
  · cases h
  · rename_i c cs _
    cases hcut : cutToken (c :: cs) with
    | error e =>
      rw [hcut] at h
      cases h
    | ok r =>
      rw [hcut] at h
      cases h
      exact isSpelled_of_cutToken hcut

private theorem isSpelled_of_before {size : Nat} {cs : List Char} {p : Position} {t : Token}
    (h : Position.before size cs = .ok p) (ht : p.next = some t) : t.IsSpelled := by
  obtain ⟨⟨next, rest⟩, hfirst, hp⟩ := Cut.bind_eq_ok.1 h
  cases hp
  obtain rfl : next = some t := ht
  exact isSpelled_of_firstToken hfirst

/-! ### Literals -/

namespace Reader

private theorem run_bind_eq_ok {α β : Type} {r : Reader α} {k : α → Reader β} {p p'' : Position} {b : β} :
    (r >>= k).run p = .ok (b, p'') ↔ ∃ a p', r.run p = .ok (a, p') ∧ (k a).run p' = .ok (b, p'') := by
  rw [StateT.run_bind, Cut.bind_eq_ok]
  exact Prod.exists

/-- What a literal says at its front is the next token. -/
private theorem isSpelled_of_literal {constant : Bool} {depth : Nat} {p p' : Position} {l : Literal}
    (hp : ∀ t, p.next = some t → t.IsSpelled) (h : (literal constant depth).run p = .ok (l, p')) : l.IsSpelled := by
  unfold literal at h
  obtain ⟨next, q, hpeek, h⟩ := run_bind_eq_ok.1 h
  cases hpeek
  split at h
  -- lists and objects
  · split at h
    · cases h
    · obtain ⟨-, q, -, h⟩ := run_bind_eq_ok.1 h
      obtain ⟨items, q', -, h⟩ := run_bind_eq_ok.1 h
      cases h
      exact trivial
  · split at h
    · cases h
    · obtain ⟨-, q, -, h⟩ := run_bind_eq_ok.1 h
      obtain ⟨fields, q', -, h⟩ := run_bind_eq_ok.1 h
      cases h
      exact trivial
  -- numbers and texts
  · rename_i s hnext
    obtain ⟨-, q, -, h⟩ := run_bind_eq_ok.1 h
    cases h
    exact hp _ hnext
  · obtain ⟨-, q, -, h⟩ := run_bind_eq_ok.1 h
    cases h
    exact trivial
  · obtain ⟨-, q, -, h⟩ := run_bind_eq_ok.1 h
    cases h
    exact trivial
  · obtain ⟨-, q, -, h⟩ := run_bind_eq_ok.1 h
    cases h
    exact trivial
  -- words
  · rename_i s hnext
    obtain ⟨-, q, -, h⟩ := run_bind_eq_ok.1 h
    cases h
    have hs : BeginsName s := hp _ hnext
    split
    · exact trivial
    · split
      · exact trivial
      · split
        · exact trivial
        · exact hs
  -- variables
  · obtain ⟨-, q, -, h⟩ := run_bind_eq_ok.1 h
    dsimp only at h
    split at h
    · obtain ⟨next, q', -, h⟩ := run_bind_eq_ok.1 h
      split at h <;> cases h
    · obtain ⟨name, q', -, h⟩ := run_bind_eq_ok.1 h
      cases h
      exact trivial
  · cases h

end Reader

theorem isSpelled_of_parseLiteral {text : String} {l : Literal} (h : parseLiteral text = .ok l) : l.IsSpelled := by
  unfold parseLiteral readAll at h
  obtain ⟨p, hp, h⟩ := Cut.bind_eq_ok.1 h
  obtain ⟨⟨l', p'⟩, hread, h⟩ := Cut.bind_eq_ok.1 h
  cases h
  unfold Reader.onlyLiteral at hread
  obtain ⟨l'', q, hl, hread⟩ := Reader.run_bind_eq_ok.1 hread
  obtain ⟨next, q', hpeek, hread⟩ := Reader.run_bind_eq_ok.1 hread
  split at hread
  · cases hread
    exact Reader.isSpelled_of_literal (fun t => isSpelled_of_before hp) hl
  · cases hread

end ThriftGateway.Request
