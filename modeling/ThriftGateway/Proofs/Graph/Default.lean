import ThriftGateway.Graph.Default

/-!
# Legal defaults

A value is legal for a type if lists stand exactly where the type has lists, and all leaves are legal for what is
inside (`Legal`).  What is checked of a default is less: that the outermost type and value are both lists or both not,
and that all leaves, at whatever depth, fit (`isCarried_of_defaultFor`).  So a carried default is legal exactly if its
nesting is that of the type and its leaves are in range (`IsCarried.legal_iff`).
-/

namespace ThriftGateway.Graph

open Idl (ConstValue)

/-! ### Leaves -/

mutual
/-- What a list consists of at any depth; a value that is no list consists of itself. -/
def leaves : Value → List Value
  | .list items => leavesOf items
  | v => [v]

/-- What several values consist of. -/
def leavesOf : List Value → List Value
  | [] => []
  | v :: vs => leaves v ++ leavesOf vs
end

private theorem mem_leavesOf {x : Value} {vs : List Value} : x ∈ leavesOf vs ↔ ∃ v ∈ vs, x ∈ leaves v := by
  induction vs with
  | nil => simp [leavesOf]
  | cons v vs ih => simp [leavesOf, ih]

theorem mem_leaves_list {x : Value} {items : List Value} : x ∈ leaves (.list items) ↔ ∃ v ∈ items, x ∈ leaves v := by
  rw [leaves]
  exact mem_leavesOf

theorem leaves_of_not_list {v : Value} (h : isListValue v = false) : leaves v = [v] := by
  cases v with
  | list items => cases h
  | _ => rw [leaves]; simp

private theorem fits_of_not_list {t : NamedType} {v : Value} (h : isListValue v = false) :
    fits t v = fitsNamed t v := by
  cases v with
  | list items => cases h
  | _ => rw [fits]; simp

/-- Only truth values, numbers and texts fit. -/
theorem kind_of_fitsNamed {t : NamedType} {v : Value} (h : fitsNamed t v = true) :
    (∃ b, v = .bool b) ∨ (∃ n, v = .int n) ∨ (∃ d, v = .float d) ∨ ∃ s, v = .text s := by
  cases v with
  | bool b => exact Or.inl ⟨b, rfl⟩
  | int n => exact Or.inr (Or.inl ⟨n, rfl⟩)
  | float d => exact Or.inr (Or.inr (Or.inl ⟨d, rfl⟩))
  | text s => exact Or.inr (Or.inr (Or.inr ⟨s, rfl⟩))
  | _ => simp [fitsNamed] at h

mutual
/-- A value fits if all its leaves do. -/
theorem fits_iff {t : NamedType} : ∀ {v : Value}, fits t v = true ↔ ∀ x ∈ leaves v, fitsNamed t x = true
  | .list items => by
    rw [fits, leaves]
    exact fitsAll_iff
  | .null | .undefined | .bool _ | .int _ | .float _ | .text _ | .tuple _ | .set _ _ | .map _ | .thing .. => by
    rw [fits_of_not_list rfl, leaves_of_not_list rfl]
    simp

private theorem fitsAll_iff {t : NamedType} :
    ∀ {vs : List Value}, fitsAll t vs = true ↔ ∀ x ∈ leavesOf vs, fitsNamed t x = true
  | [] => by simp [fitsAll, leavesOf]
  | v :: vs => by
    rw [fitsAll, Bool.and_eq_true, fits_iff, fitsAll_iff, leavesOf]
    simp only [List.mem_append]
    constructor
    · rintro ⟨hv, hvs⟩ x (hx | hx)
      · exact hv x hx
      · exact hvs x hx
    · exact fun h => ⟨fun x hx => h x (Or.inl hx), fun x hx => h x (Or.inr hx)⟩
end

/-! ### Legal values -/

/-- A value that is no list is legal for what is inside all lists. -/
def LegalLeaf : NamedType → Value → Prop
  | .scalar .int, .int n => -0x80000000 ≤ n ∧ n ≤ 0x7fffffff
  | .scalar (.wide .int64), .int n => -0x8000000000000000 ≤ n ∧ n ≤ 0x7fffffffffffffff
  | .scalar .float, .int _ => True
  | .scalar .float, .float d => d.isFinite = true
  | .scalar .string, .text _ => True
  | .scalar .boolean, .bool _ => True
  | _, _ => False

/-- A value is legal for a type: a list of legal elements for a list, and a legal leaf inside. -/
def Legal : GraphType → Value → Prop
  | .nonNull t, v => Legal t v
  | .list t, .list items => ∀ v ∈ items, Legal t v
  | .list _, _ => False
  | .named t, v => LegalLeaf t v

/-- Lists stand exactly where the type has lists. -/
def SameNesting : GraphType → Value → Prop
  | .nonNull t, v => SameNesting t v
  | .list t, .list items => ∀ v ∈ items, SameNesting t v
  | .list _, _ => False
  | .named _, v => isListValue v = false

/-- What fitting leaves open: integers at `Int64` are in range, and floating point numbers are finite. -/
def InRange : NamedType → Value → Prop
  | .scalar (.wide .int64), .int n => -0x8000000000000000 ≤ n ∧ n ≤ 0x7fffffffffffffff
  | .scalar .float, .float d => d.isFinite = true
  | _, _ => True

theorem inIntRange_iff {n : Int} : inIntRange n = true ↔ -0x80000000 ≤ n ∧ n ≤ 0x7fffffff := by
  rw [inIntRange, Bool.and_eq_true, decide_eq_true_iff, decide_eq_true_iff]
  exact Iff.rfl

private theorem legalLeaf_iff {t : NamedType} {v : Value} : LegalLeaf t v ↔ fitsNamed t v = true ∧ InRange t v := by
  cases t with
  | node id => simp [LegalLeaf, fitsNamed]
  | scalar s =>
    cases s with
    | int => cases v <;> simp [LegalLeaf, fitsNamed, InRange, inIntRange_iff]
    | wide w => cases w <;> cases v <;> simp [LegalLeaf, fitsNamed, InRange]
    | _ => cases v <;> simp [LegalLeaf, fitsNamed, InRange]

/-- Legal is what has the nesting of the type, and legal leaves. -/
theorem legal_iff {t : GraphType} {v : Value} :
    Legal t v ↔ SameNesting t v ∧ ∀ x ∈ leaves v, LegalLeaf t.innermost x := by
  induction t generalizing v with
  | nonNull t ih => exact ih
  | list t ih =>
    cases v with
    | list items =>
      show (∀ v ∈ items, Legal t v) ↔ (∀ v ∈ items, SameNesting t v) ∧ _
      constructor
      · intro h
        refine ⟨fun v hv => (ih.1 (h v hv)).1, fun x hx => ?_⟩
        obtain ⟨v, hv, hx⟩ := mem_leaves_list.1 hx
        exact (ih.1 (h v hv)).2 x hx
      · rintro ⟨hn, hl⟩ v hv
        exact ih.2 ⟨hn v hv, fun x hx => hl x (mem_leaves_list.2 ⟨v, hv, hx⟩)⟩
    | _ => simp [Legal, SameNesting]
  | named t =>
    show LegalLeaf t v ↔ isListValue v = false ∧ ∀ x ∈ leaves v, LegalLeaf t x
    by_cases hv : isListValue v = true
    · have hno : ¬LegalLeaf t v := by
        rw [legalLeaf_iff]
        cases v <;> simp [isListValue, fitsNamed] at hv ⊢
      simp [hv, hno]
    · have hv : isListValue v = false := by simpa using hv
      rw [leaves_of_not_list hv]
      simp [hv]

/-! ### Carried defaults -/

/-- What is checked of a default: the type and the value are both lists or both not, and all leaves fit. -/
structure IsCarried (t : GraphType) (v : Value) : Prop where
  isList : isListValue v = t.isList
  fits : ∀ x ∈ leaves v, fitsNamed t.innermost x = true

theorem isCarried_of_defaultFor {c : Option ConstValue} {t : GraphType} {v : Value}
    (h : defaultFor c t = .ok (some v)) : IsCarried t v := by
  unfold defaultFor at h
  split at h
  · cases h
  · rename_i c
    cases hc : constantValue c with
    | error e =>
      rw [hc] at h
      cases h
    | ok w =>
      rw [hc] at h
      have h : w.filter (fun v => isListValue v == t.isList && Graph.fits t.innermost v) = some v :=
        Except.ok.inj h
      rw [Option.filter_eq_some_iff, Bool.and_eq_true, beq_iff_eq] at h
      exact ⟨h.2.1, fits_iff.1 h.2.2⟩

/-- A carried default is legal exactly if its nesting is that of the type and its leaves are in range. -/
theorem IsCarried.legal_iff {t : GraphType} {v : Value} (h : IsCarried t v) :
    Legal t v ↔ SameNesting t v ∧ ∀ x ∈ leaves v, InRange t.innermost x := by
  rw [Graph.legal_iff]
  refine and_congr_right fun _ => forall₂_congr fun x hx => ?_
  rw [legalLeaf_iff]
  simp [h.fits x hx]

end ThriftGateway.Graph
