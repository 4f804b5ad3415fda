import ThriftGateway.Proofs.Idl.Reading
import ThriftGateway.Proofs.Idl.Writing

/-!
# Types and constants from what has been written out

The lexemes of a type make a tree that stands for the type on the first line (`reads_type`), and so do those of a
constant (`reads_value`).
-/

namespace ThriftGateway.Idl

open Grammar.Tree (leafText)
open Lexeme (isSound_fixed)

section

variable {ss : List Piece} {ls : List Lexeme} {P : List Tree → Prop}

/-- A word of the grammar or a mark, and what follows it. -/
theorem ReadsAll.fixed (k : Terminal) (h : ReadsAll ss ls P) (hk : k.spelling?.isSome = true) :
    ReadsAll (.terminal k :: ss) (.fixed k :: ls) fun ts =>
      ∃ token rest, ts = .leaf token :: rest ∧ token.kind = k ∧ P rest := by
  refine (h.word (isSound_fixed (Option.isSome_iff_ne_none.1 hk))).imp fun ts => ?_
  rintro ⟨token, rest, rfl, ⟨hkind, -⟩, hrest⟩
  exact ⟨token, rest, rfl, hkind, hrest⟩

/-- A name, and what follows it. -/
theorem ReadsAll.name {name : String} (hname : IsIdentifier name) (h : ReadsAll ss ls P) :
    ReadsAll (.terminal .identifier :: ss) (.word .identifier name :: ls) fun ts =>
      ∃ token rest, ts = .leaf token :: rest ∧ (token.kind = .identifier ∧ token.text = name) ∧ P rest :=
  h.word ⟨by decide, Written.identifier hname⟩

end

@[simp] theorem typesOf_leaf (token : Grammar.Token Terminal) : typesOf (.leaf token) = [] := rfl

@[simp] theorem valuesOf_leaf (token : Grammar.Token Terminal) : valuesOf (.leaf token) = [] := rfl

/-! ### Types -/

/-- A name at the place of a type or a constant. -/
private theorem reads_named {name : String} (h : IsIdentifier name) :
    Reads .named [.word .identifier name] fun t => typesOf t = [.named 1 name] ∧ valuesOf t = [.named 1 name] := by
  refine Reads.node (ReadsAll.nil.name h) ?_ (by decide) (by decide)
  rintro _ hline ⟨token, _, rfl, ⟨hkind, htext⟩, rfl⟩
  simp [typesOf, valuesOf, leafText, hline, hkind, htext]

private theorem reads_base {name : String} (h : name ∈ baseTypeNames) :
    Reads .base [.word .baseType name] fun t => typesOf t = [.base 1 name] := by
  refine Reads.node (ReadsAll.nil.word ⟨by decide, Written.base h⟩) ?_ (by decide) (by decide)
  rintro _ hline ⟨token, _, rfl, ⟨hkind, htext⟩, rfl⟩
  simp [typesOf, leafText, hline, hkind, htext]

/-- A kind of type is a type. -/
private theorem reads_fieldType {c : Category} {ls : List Lexeme} {ty : TypeExpr}
    (h : Reads c ls fun t => typesOf t = [ty])
    (hc : [.category c] ∈ rightSides .fieldType) : Reads .fieldType ls fun t => typesOf t = [ty] := by
  refine Reads.node (ReadsAll.single h) ?_ hc (by decide)
  rintro _ - ⟨us, rfl, hus⟩
  rw [typesOf]
  simp [typesOfAll, hus]

theorem reads_type : (ty : TypeExpr) → ty.IsExpressible → Reads .fieldType ty.lexemes fun t => typesOf t = [ty.flat]
  | .base _ _, h => reads_fieldType (reads_base h) (by decide)
  | .named _ _, h => reads_fieldType ((reads_named h).imp fun _ ht => ht.1) (by decide)
  | .list _ element, h => by
    have helement := (ReadsAll.nil.fixed .moreThan rfl).tree (reads_type element h)
    refine reads_fieldType (c := .listType)
      (Reads.node ((helement.fixed .lessThan rfl).fixed .kwList rfl) ?_ (by decide) (by decide)) (by decide)
    rintro _ hline ⟨_, _, rfl, -, _, _, rfl, -, us, _, rfl, hus, _, _, rfl, -, rfl⟩
    rw [typesOf]
    simp [typesOfAll, hus, hline, TypeExpr.flat]
  | .set _ element, h => by
    have helement := (ReadsAll.nil.fixed .moreThan rfl).tree (reads_type element h)
    refine reads_fieldType (c := .setType)
      (Reads.node ((helement.fixed .lessThan rfl).fixed .kwSet rfl) ?_ (by decide) (by decide)) (by decide)
    rintro _ hline ⟨_, _, rfl, -, _, _, rfl, -, us, _, rfl, hus, _, _, rfl, -, rfl⟩
    rw [typesOf]
    simp [typesOfAll, hus, hline, TypeExpr.flat]
  | .map _ key value, h => by
    have hvalue := (ReadsAll.nil.fixed .moreThan rfl).tree (reads_type value h.2)
    have hkey := (hvalue.fixed .comma rfl).tree (reads_type key h.1)
    refine (reads_fieldType (c := .mapType)
      (Reads.node ((hkey.fixed .lessThan rfl).fixed .kwMap rfl) ?_ (by decide) (by decide)) (by decide)).congr
      (by simp [TypeExpr.lexemes])
    rintro _ hline ⟨_, _, rfl, -, _, _, rfl, -, us, _, rfl, hus, _, _, rfl, -, vs, _, rfl, hvs, _, _, rfl, -, rfl⟩
    rw [typesOf]
    simp [typesOfAll, hus, hvs, hline, TypeExpr.flat]

/-! ### Constants -/

theorem reads_int (l : IntLiteral) (h : l.IsExpressible) :
    Reads .intConstant l.lexemes fun t => intOf t = l.flat ∧ valuesOf t = [.int l.flat] := by
  have hnumber : l.kind ∈ [Terminal.hexConstant, .doubleConstant, .intConstant] := by
    unfold IntLiteral.kind
    split <;> decide
  have hliteral : l.kind ≠ .literal := by
    unfold IntLiteral.kind
    split <;> decide
  have hside : [.terminal l.kind] ∈ rightSides .intConstant := by
    unfold IntLiteral.kind
    split <;> decide
  have hhex : l.kind = .hexConstant ↔ l.isHex = true := by
    unfold IntLiteral.kind
    split <;> simp_all
  refine Reads.node (ReadsAll.nil.word ⟨hliteral, Written.number hnumber h⟩) ?_ hside (by decide)
  rintro _ hline ⟨token, _, rfl, ⟨hkind, htext⟩, rfl⟩
  have hint : intOf (.node .intConstant [.leaf token]) = l.flat := by
    simp [intOf, hline, hkind, htext, hhex, IntLiteral.flat]
  exact ⟨hint, by rw [valuesOf, hint]⟩

private theorem reads_double {raw : String} (h : Terminal.doubleConstant.IsText raw) :
    Reads .doubleConstant [.word .doubleConstant raw] fun t => valuesOf t = [.double 1 raw] := by
  refine Reads.node (ReadsAll.nil.word ⟨by decide, Written.number (by decide) h⟩) ?_ (by decide) (by decide)
  rintro _ hline ⟨token, _, rfl, ⟨hkind, htext⟩, rfl⟩
  simp [valuesOf, leafText, hline, hkind, htext]

private theorem reads_text {text : String} (h : IsQuotable text) :
    Reads .stringLiteral [.quoted text] fun t => valuesOf t = [.text 1 text] := by
  refine Reads.node (ReadsAll.nil.quoted h) ?_ (by decide) (by decide)
  rintro _ hline ⟨token, _, rfl, ⟨hkind, htext⟩, rfl⟩
  simp [valuesOf, leafText, hline, hkind, htext]

private theorem reads_bool (b : Bool) :
    Reads .boolLiteral [.fixed (if b then .kwTrue else .kwFalse)] fun t => valuesOf t = [.bool 1 b] := by
  cases b <;>
  · refine Reads.node (ReadsAll.nil.fixed _ (by decide)) ?_ (by decide) (by decide)
    rintro _ hline ⟨token, _, rfl, hkind, rfl⟩
    simp [valuesOf, hline, hkind]

/-- A kind of constant is a constant. -/
private theorem reads_constValue {c : Category} {ls : List Lexeme} {v : ConstValue}
    (h : Reads c ls fun t => valuesOf t = [v])
    (hc : [.category c] ∈ rightSides .constValue) : Reads .constValue ls fun t => valuesOf t = [v] := by
  refine Reads.node (ReadsAll.single h) ?_ hc (by decide)
  rintro _ - ⟨us, rfl, hus⟩
  rw [valuesOf]
  simp [valuesOfAll, hus]

/-- The constants of a list category are those of its elements. -/
theorem Tree.IsChain.valuesOf {α : Type} {list : Category} {R : α → Tree → Prop} {as : List α} {t : Tree}
    (h : Tree.IsChain list R as t) (hlist : ∀ ts, valuesOf (.node list ts) = valuesOfAll ts) {g : α → List ConstValue}
    (hR : ∀ a t, R a t → Idl.valuesOf t = g a) : Idl.valuesOf t = as.flatMap g := by
  induction h with
  | one ha => simp [hlist, valuesOfAll, hR _ _ ha]
  | snoc _ ha ih => simp [hlist, valuesOfAll, hR _ _ ha, ih]

private theorem lexemesOfAll_eq (vs : List ConstValue) :
    ConstValue.lexemesOfAll vs = vs.flatMap ConstValue.lexemes := by
  induction vs with
  | nil => rfl
  | cons v vs ih => rw [ConstValue.lexemesOfAll, ih, List.flatMap_cons]

theorem flatAll_eq (vs : List ConstValue) : ConstValue.flatAll vs = vs.map ConstValue.flat := by
  induction vs with
  | nil => rfl
  | cons v vs ih => rw [ConstValue.flatAll, ih, List.map_cons]

private theorem lexemesOfEntries_eq (entries : List (ConstValue × ConstValue)) :
    ConstValue.lexemesOfEntries entries = entries.flatMap fun e => e.1.lexemes ++ .fixed .colon :: e.2.lexemes := by
  induction entries with
  | nil => rfl
  | cons e entries ih => simp [ConstValue.lexemesOfEntries, ih]

theorem flatEntries_eq (entries : List (ConstValue × ConstValue)) :
    ConstValue.flatEntries entries = entries.map fun e => (e.1.flat, e.2.flat) := by
  induction entries with
  | nil => rfl
  | cons e entries ih => rw [ConstValue.flatEntries, ih, List.map_cons]

private theorem pairUp_flatMap {α : Type} (pairs : List (α × α)) :
    pairUp (pairs.flatMap fun p => [p.1, p.2]) = pairs := by
  induction pairs with
  | nil => rfl
  | cons p pairs ih =>
    rw [List.flatMap_cons]
    show p :: pairUp (pairs.flatMap fun p => [p.1, p.2]) = p :: pairs
    rw [ih]

/-- Constants with brackets around them. -/
private theorem reads_list (line : Nat) (vs : List ConstValue)
    (h : ∀ v ∈ vs, Reads .constValue v.lexemes fun t => valuesOf t = [v.flat]) :
    Reads .constList (ConstValue.lexemes (.list line vs)) fun t => valuesOf t = [(ConstValue.list line vs).flat] := by
  by_cases hvs : vs = []
  · subst hvs
    refine Reads.node ((ReadsAll.nil.fixed .rightBracket rfl).fixed .leftBracket rfl) ?_ (by decide) (by decide)
    rintro _ hline ⟨_, _, rfl, -, _, _, rfl, -, rfl⟩
    simp [valuesOf, valuesOfAll, hline, ConstValue.flat, ConstValue.flatAll]
  · have hitems := Reads.chain .constItems (fun _ => .constValue) (by decide) (fun _ => by decide) (fun _ => by decide)
      vs hvs h
    have hparts := ((ReadsAll.nil.fixed .rightBracket rfl).tree hitems).fixed .leftBracket rfl
    refine (Reads.node hparts ?_ (by decide) (by decide)).congr (by simp [ConstValue.lexemes, lexemesOfAll_eq])
    rintro _ hline ⟨_, _, rfl, -, us, _, rfl, hus, _, _, rfl, -, rfl⟩
    have hvalues := hus.valuesOf (fun _ => rfl) (g := fun v => [v.flat]) fun v t ht => ht.2
    rw [valuesOf]
    simp [valuesOfAll, hvalues, hline, ConstValue.flat, flatAll_eq, List.map_eq_flatMap]

/-- Entries with braces around them. -/
private theorem reads_map (line : Nat) (entries : List (ConstValue × ConstValue))
    (h : ∀ e ∈ entries, Reads .constEntry (e.1.lexemes ++ .fixed .colon :: e.2.lexemes) fun t =>
      valuesOf t = [e.1.flat, e.2.flat]) :
    Reads .constMap (ConstValue.lexemes (.map line entries)) fun t =>
      valuesOf t = [(ConstValue.map line entries).flat] := by
  by_cases hentries : entries = []
  · subst hentries
    refine Reads.node ((ReadsAll.nil.fixed .rightBrace rfl).fixed .leftBrace rfl) ?_ (by decide) (by decide)
    rintro _ hline ⟨_, _, rfl, -, _, _, rfl, -, rfl⟩
    simp [valuesOf, valuesOfAll, hline, ConstValue.flat, ConstValue.flatEntries, pairUp]
  · have hitems := Reads.chain .constEntries (fun _ => .constEntry) (by decide) (fun _ => by decide)
      (fun _ => by decide) entries hentries h
    have hparts := ((ReadsAll.nil.fixed .rightBrace rfl).tree hitems).fixed .leftBrace rfl
    refine (Reads.node hparts ?_ (by decide) (by decide)).congr (by simp [ConstValue.lexemes, lexemesOfEntries_eq])
    rintro _ hline ⟨_, _, rfl, -, us, _, rfl, hus, _, _, rfl, -, rfl⟩
    have hvalues := hus.valuesOf (fun _ => rfl) (g := fun e => [e.1.flat, e.2.flat]) fun e t ht => ht.2
    have hpairs := pairUp_flatMap (entries.map fun e => (e.1.flat, e.2.flat))
    rw [List.flatMap_map] at hpairs
    rw [valuesOf]
    simp [valuesOfAll, hvalues, hline, ConstValue.flat, flatEntries_eq, hpairs]

/-- A key and a value with a colon between them. -/
private theorem reads_entry {k v : ConstValue} (hk : Reads .constValue k.lexemes fun t => valuesOf t = [k.flat])
    (hv : Reads .constValue v.lexemes fun t => valuesOf t = [v.flat]) :
    Reads .constEntry (k.lexemes ++ .fixed .colon :: v.lexemes) fun t => valuesOf t = [k.flat, v.flat] := by
  refine Reads.node (((ReadsAll.single hv).fixed .colon rfl).tree hk) ?_ (by decide) (by decide)
  rintro _ - ⟨us, _, rfl, hus, _, _, rfl, -, vs, rfl, hvs⟩
  rw [valuesOf]
  simp [valuesOfAll, hus, hvs]

mutual
theorem reads_value : (v : ConstValue) → v.IsExpressible → Reads .constValue v.lexemes fun t => valuesOf t = [v.flat]
  | .int l, h => reads_constValue ((reads_int l h).imp fun _ ht => ht.2) (by decide)
  | .double _ _, h => reads_constValue (reads_double h) (by decide)
  | .text _ _, h => reads_constValue (reads_text h) (by decide)
  | .bool _ b, _ => reads_constValue (reads_bool b) (by decide)
  | .named _ _, h => reads_constValue ((reads_named h).imp fun _ ht => ht.2) (by decide)
  | .list line vs, h => reads_constValue (reads_list line vs (reads_values vs h)) (by decide)
  | .map line entries, h => reads_constValue (reads_map line entries (reads_entries entries h)) (by decide)

private theorem reads_values : (vs : List ConstValue) → ConstValue.AllExpressible vs →
    ∀ v ∈ vs, Reads .constValue v.lexemes fun t => valuesOf t = [v.flat]
  | [], _ => by simp
  | v :: vs, h => by
    rintro w (_ | ⟨_, hw⟩)
    · exact reads_value v h.1
    · exact reads_values vs h.2 w hw

private theorem reads_entries : (entries : List (ConstValue × ConstValue)) → ConstValue.EntriesExpressible entries →
    ∀ e ∈ entries, Reads .constEntry (e.1.lexemes ++ .fixed .colon :: e.2.lexemes) fun t =>
      valuesOf t = [e.1.flat, e.2.flat]
  | [], _ => by simp
  | (k, v) :: entries, h => by
    rintro e (_ | ⟨_, he⟩)
    · exact reads_entry (reads_value k h.1.1) (reads_value v h.1.2)
    · exact reads_entries entries h.2 e he
end

end ThriftGateway.Idl
