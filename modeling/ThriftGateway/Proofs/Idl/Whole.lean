import ThriftGateway.Proofs.Idl.Read

/-!
# Documents with nothing left out

A whole document says everything that the grammar wants said: every node has its line, names are identifiers, numbers
are texts of their terminals, constants have values, and only types stand where types are expected.  What a text is
parsed to is whole (`isWhole_of_parse`).
-/

namespace ThriftGateway.Idl

/-! ### Whole documents -/

/-- A type that is written out, with all types in it. -/
inductive TypeExpr.IsWhole : TypeExpr → Prop
  | base {line name} (hline : 0 < line) (hname : name ∈ baseTypeNames) : IsWhole (.base line name)
  | named {line reference} (hline : 0 < line) (hname : Terminal.identifier.IsText reference) :
      IsWhole (.named line reference)
  | list {line element} (hline : 0 < line) (h : IsWhole element) : IsWhole (.list line element)
  | set {line element} (hline : 0 < line) (h : IsWhole element) : IsWhole (.set line element)
  | map {line key value} (hline : 0 < line) (hk : IsWhole key) (hv : IsWhole value) : IsWhole (.map line key value)

/-- What a function can give: a type that is written out, or nothing. -/
inductive TypeExpr.IsWholeResult : TypeExpr → Prop
  | type {ty} (h : ty.IsWhole) : IsWholeResult ty
  | void {line} (hline : 0 < line) : IsWholeResult (.void line)

/-- A text that stands in one kind of quotes. -/
def IsEnclosed (text : String) : Prop := '"' ∉ text.toList ∨ '\'' ∉ text.toList

/-- A whole number with its line, as a text of its terminal. -/
structure IntLiteral.IsWhole (l : IntLiteral) : Prop where
  line : 0 < l.line
  raw : l.kind.IsText l.raw

/-- A constant that is written out, with all constants in it. -/
inductive ConstValue.IsWhole : ConstValue → Prop
  | int {literal} (h : literal.IsWhole) : IsWhole (.int literal)
  | double {line raw} (hline : 0 < line) (hraw : Terminal.doubleConstant.IsText raw) : IsWhole (.double line raw)
  | text {line value} (hline : 0 < line) (hvalue : IsEnclosed value) : IsWhole (.text line value)
  | bool {line value} (hline : 0 < line) : IsWhole (.bool line value)
  | named {line reference} (hline : 0 < line) (hname : Terminal.identifier.IsText reference) :
      IsWhole (.named line reference)
  | list {line elements} (hline : 0 < line) (h : ∀ v ∈ elements, IsWhole v) : IsWhole (.list line elements)
  | map {line entries} (hline : 0 < line) (hk : ∀ e ∈ entries, IsWhole e.1) (hv : ∀ e ∈ entries, IsWhole e.2) :
      IsWhole (.map line entries)

/-- The line and the name of a node. -/
structure IsLabelled (line : Nat) (name : String) : Prop where
  line : 0 < line
  name : Terminal.identifier.IsText name

structure Field.IsWhole (f : Field) : Prop where
  label : IsLabelled f.line f.name
  type : f.type.IsWhole
  default : ∀ v ∈ f.default, v.IsWhole

structure Member.IsWhole (m : Member) : Prop where
  label : IsLabelled m.line m.name
  initializer : ∀ l ∈ m.initializer, l.IsWhole

def Declaration.IsWhole : Declaration → Prop
  | .struct s => IsLabelled s.line s.name ∧ ∀ f ∈ s.fields, f.IsWhole
  | .enumeration e => IsLabelled e.line e.name ∧ ∀ m ∈ e.members, m.IsWhole
  | .typedef t => IsLabelled t.line t.name ∧ t.target.IsWhole

/-- A constant has a value. -/
structure Constant.IsWhole (c : Constant) : Prop where
  label : IsLabelled c.line c.name
  type : c.type.IsWhole
  value : ∃ v, c.value = some v ∧ v.IsWhole

structure Function.IsWhole (f : Function) : Prop where
  label : IsLabelled f.line f.name
  result : f.result.IsWholeResult
  arguments : ∀ a ∈ f.arguments, a.IsWhole
  throws : ∀ a ∈ f.throws, a.IsWhole

structure Service.IsWhole (s : Service) : Prop where
  label : IsLabelled s.line s.name
  parent : ∀ name ∈ s.parent, Terminal.identifier.IsText name
  functions : ∀ f ∈ s.functions, f.IsWhole

def Statement.IsWhole : Statement → Prop
  | .inclusion line path | .cppInclusion line path => 0 < line ∧ IsEnclosed path
  | .scope line language name => IsLabelled line name ∧ (language = "*" ∨ Terminal.identifier.IsText language)
  | .constant c => c.IsWhole
  | .declaration d => d.IsWhole
  | .service s => s.IsWhole

/-- A document that begins on the first line and has nothing left out. -/
structure Document.IsWhole (d : Document) : Prop where
  line : d.line = 1
  body : ∀ statement ∈ d.body, statement.IsWhole

/-! ### Texts of terminals -/

private theorem mem_of_isText {name : String} (h : Terminal.baseType.IsText name) : name ∈ baseTypeNames := by
  obtain ⟨other, hfind, hlength⟩ := Option.map_eq_some_iff.1 h
  have hfront := List.find?_some hfind
  rw [Bool.and_eq_true] at hfront
  have hbegins := List.isPrefixOf_iff_prefix.1 hfront.1
  have hsame : other = name := String.toList_inj.1 (hbegins.eq_of_length hlength)
  rw [← hsame]
  exact List.mem_of_find?_eq_some hfind

/-- A quote does not stand in the text between two of its kind. -/
private theorem isEnclosed_unquote {text : String} (h : Terminal.literal.IsText text) : IsEnclosed (unquote text) := by
  obtain ⟨q, hq, front, htext, hfront⟩ := exists_of_matchLiteral h
  rw [IsEnclosed, unquote, String.toList_ofList, htext, List.drop_one, List.tail_cons, List.dropLast_concat]
  simp only [List.mem_cons, List.not_mem_nil, or_false] at hq
  rcases hq with rfl | rfl
  · exact .inl hfront
  · exact .inr hfront

/-! ### Types -/

/-- The symbols that stand for types. -/
def standsForType : Piece → Bool
  | .category c =>
    [Category.fieldType, .functionType, .voidType, .named, .base, .mapType, .setType, .listType].contains c
  | .terminal _ => false

/-- What stands for types below a category, one right-hand side after the other. -/
def innerTypes : Category → List (List Piece)
  | .fieldType => [.named, .base, .mapType, .setType, .listType].map fun c => [.category c]
  | .functionType => [[.category .fieldType], [.category .voidType]]
  | .mapType => [[.category .fieldType, .category .fieldType]]
  | .setType | .listType => [[.category .fieldType]]
  | _ => [[]]

private theorem filter_rightSides : ∀ c ∈ categories, standsForType (.category c) = true →
    ∀ symbols ∈ rightSides c, symbols.filter standsForType ∈ innerTypes c := by
  decide

/-- What a symbol stands for: a type that is written out, or for some symbols nothing. -/
def Fits : Piece → TypeExpr → Prop
  | .category .functionType, ty | .category .voidType, ty => ty.IsWholeResult
  | _, ty => ty.IsWhole

private theorem typesOf_eq_nil {c : Category} (h : standsForType (.category c) = false) (ts : List Tree) :
    typesOf (.node c ts) = [] := by
  cases c <;> first | rfl | cases h

/-- The symbols of one type give one type. -/
private theorem exists_type {types : List TypeExpr} {k : Category} (h : List.Forall₂ Fits [.category k] types) :
    ∃ ty, types = [ty] ∧ Fits (.category k) ty := by
  obtain ⟨ty, _, hty, hnil, rfl⟩ := List.forall₂_cons_left_iff.1 h
  exact ⟨ty, by rw [List.forall₂_nil_left_iff.1 hnil], hty⟩

/-- A node stands for what its category does if the nodes below it do. -/
private theorem fits_node {c : Category} {ts : List Tree} (h : Tree.IsRead (.node c ts))
    (hall : List.Forall₂ Fits ((ts.map Grammar.Tree.root).filter standsForType) (typesOfAll ts)) :
    List.Forall₂ Fits ([.category c].filter standsForType) (typesOf (.node c ts)) := by
  cases hc : standsForType (.category c) with
  | false =>
    rw [List.filter_cons_of_neg (by simp [hc]), typesOf_eq_nil hc]
    exact .nil
  | true =>
    have hinner := filter_rightSides c (List.mem_of_getElem? (categories_number c)) hc _ h.roots_mem
    generalize (ts.map Grammar.Tree.root).filter standsForType = symbols at hall hinner
    rw [List.filter_cons_of_pos hc, List.filter_nil]
    cases c with
    | fieldType =>
      simp only [innerTypes, List.map_cons, List.map_nil, List.mem_cons, List.not_mem_nil, or_false] at hinner
      rcases hinner with rfl | rfl | rfl | rfl | rfl <;>
      · obtain ⟨ty, htypes, hty⟩ := exists_type hall
        rw [typesOf, htypes]
        exact .cons hty .nil
    | functionType =>
      simp only [innerTypes, List.mem_cons, List.not_mem_nil, or_false] at hinner
      rcases hinner with rfl | rfl
      · obtain ⟨ty, htypes, hty⟩ := exists_type hall
        rw [typesOf, htypes]
        exact .cons (.type hty) .nil
      · obtain ⟨ty, htypes, hty⟩ := exists_type hall
        rw [typesOf, htypes]
        exact .cons hty .nil
    | voidType => exact .cons (.void h.line_pos) .nil
    | named => exact .cons (.named h.line_pos (h.isText_leafText (by decide))) .nil
    | base => exact .cons (.base h.line_pos (mem_of_isText (h.isText_leafText (by decide)))) .nil
    | listType =>
      obtain rfl := List.mem_singleton.1 hinner
      obtain ⟨ty, htypes, hty⟩ := exists_type hall
      rw [typesOf, htypes]
      exact .cons (.list h.line_pos hty) .nil
    | setType =>
      obtain rfl := List.mem_singleton.1 hinner
      obtain ⟨ty, htypes, hty⟩ := exists_type hall
      rw [typesOf, htypes]
      exact .cons (.set h.line_pos hty) .nil
    | mapType =>
      obtain rfl := List.mem_singleton.1 hinner
      obtain ⟨key, _, hkey, hrest, htypes⟩ := List.forall₂_cons_left_iff.1 hall
      obtain ⟨value, rfl, hvalue⟩ := exists_type hrest
      rw [typesOf, htypes]
      exact .cons (.map h.line_pos hkey hvalue) .nil
    | _ => cases hc

mutual
private theorem typesOf_fits : (t : Tree) → t.IsRead → List.Forall₂ Fits ([t.root].filter standsForType) (typesOf t)
  | .leaf _, _ => .nil
  | .node _ ts, h => fits_node h (typesOfAll_fits ts fun _ => h.of_mem)

private theorem typesOfAll_fits : (ts : List Tree) → (∀ t ∈ ts, t.IsRead) →
    List.Forall₂ Fits ((ts.map Grammar.Tree.root).filter standsForType) (typesOfAll ts)
  | [], _ => .nil
  | t :: ts, h => by
    have hfirst := typesOf_fits t (h t List.mem_cons_self)
    have hrest := typesOfAll_fits ts fun u hu => h u (List.mem_cons_of_mem _ hu)
    rw [List.map_cons, ← List.singleton_append, List.filter_append, typesOfAll]
    exact List.rel_append hfirst hrest
end

/-- What is read from a child that stands for a type is what the child stands for. -/
private theorem fits_typeOf (k : Category) {c : Category} {ts : List Tree} (h : Tree.IsRead (.node c ts))
    (hk : standsForType (.category k) = true) (hc : ∀ symbols ∈ rightSides c, .category k ∈ symbols) :
    Fits (.category k) (typeOf ((Grammar.Tree.node c ts).child? k)) := by
  obtain ⟨us, hchild, hread⟩ := h.exists_child hc
  have hfits := typesOf_fits _ hread
  rw [Grammar.Tree.root, List.filter_cons_of_pos hk, List.filter_nil] at hfits
  obtain ⟨ty, htypes, hty⟩ := exists_type hfits
  rw [hchild, typeOf, Option.elim_some, htypes]
  exact hty

/-! ### Constants -/

private theorem isWhole_intOf {ts : List Tree} (h : Tree.IsRead (.node .intConstant ts)) :
    (intOf (.node .intConstant ts)).IsWhole := by
  have hsides : ∀ symbols ∈ rightSides .intConstant,
      symbols = [.terminal .intConstant] ∨ symbols = [.terminal .hexConstant] := by decide
  have hroots : ∃ k ∈ [Terminal.intConstant, .hexConstant], ts.map Grammar.Tree.root = [.terminal k] := by
    simpa using hsides _ h.roots_mem
  obtain ⟨k, hk, hroots⟩ := hroots
  obtain ⟨t, rfl, hroot⟩ := List.map_eq_singleton_iff.1 hroots
  cases t with
  | node => cases hroot
  | leaf token =>
    obtain rfl : token.kind = k := by simpa [Grammar.Tree.root] using hroot
    have hkind : (intOf (.node .intConstant [.leaf token])).kind = token.kind := by
      simp only [List.mem_cons, List.not_mem_nil, or_false] at hk
      rcases hk with hk | hk <;> simp [intOf, IntLiteral.kind, hk]
    refine ⟨h.line_pos, ?_⟩
    rw [hkind]
    exact h.texts token List.mem_cons_self

private theorem mem_of_mem_pairUp {α : Type} : {as : List α} → {p : α × α} → p ∈ pairUp as → p.1 ∈ as ∧ p.2 ∈ as
  | [], _, h | [_], _, h => by cases h
  | a :: b :: rest, p, h => by
    rcases List.mem_cons.1 h with rfl | h
    · simp
    · obtain ⟨h1, h2⟩ := mem_of_mem_pairUp h
      exact ⟨by simp [h1], by simp [h2]⟩

private theorem isWhole_of_node {c : Category} {ts : List Tree} (h : Tree.IsRead (.node c ts))
    (hall : ∀ v ∈ valuesOfAll ts, v.IsWhole) : ∀ v ∈ valuesOf (.node c ts), v.IsWhole := by
  have hline := h.line_pos
  cases c with
  | constValue | constItems | constEntries | constEntry => exact hall
  | intConstant => exact List.forall_mem_singleton.2 (.int (isWhole_intOf h))
  | doubleConstant => exact List.forall_mem_singleton.2 (.double hline (h.isText_leafText (by decide)))
  | stringLiteral =>
    exact List.forall_mem_singleton.2 (.text hline (isEnclosed_unquote (h.isText_leafText (by decide))))
  | boolLiteral => exact List.forall_mem_singleton.2 (.bool hline)
  | named => exact List.forall_mem_singleton.2 (.named hline (h.isText_leafText (by decide)))
  | constList => exact List.forall_mem_singleton.2 (.list hline hall)
  | constMap =>
    exact List.forall_mem_singleton.2 (.map hline (fun e he => hall _ (mem_of_mem_pairUp he).1)
      fun e he => hall _ (mem_of_mem_pairUp he).2)
  | _ => exact List.forall_mem_nil _

mutual
private theorem isWhole_valuesOf : (t : Tree) → t.IsRead → ∀ v ∈ valuesOf t, v.IsWhole
  | .leaf _, _ => List.forall_mem_nil _
  | .node _ ts, h => isWhole_of_node h (isWhole_valuesOfAll ts fun _ => h.of_mem)

private theorem isWhole_valuesOfAll : (ts : List Tree) → (∀ t ∈ ts, t.IsRead) → ∀ v ∈ valuesOfAll ts, v.IsWhole
  | [], _ => List.forall_mem_nil _
  | t :: ts, h => List.forall_mem_append.2 ⟨isWhole_valuesOf t (h t List.mem_cons_self),
      isWhole_valuesOfAll ts fun u hu => h u (List.mem_cons_of_mem _ hu)⟩
end

/-- What stands at the place of a constant is one constant. -/
private theorem exists_value {ts : List Tree} (h : Tree.IsRead (.node .constValue ts)) :
    ∃ v, valuesOf (.node .constValue ts) = [v] := by
  have hsides : ∀ symbols ∈ rightSides .constValue,
      ∃ k ∈ [Category.intConstant, .doubleConstant, .stringLiteral, .boolLiteral, .named, .constList, .constMap],
        symbols = [.category k] := by decide
  obtain ⟨k, hk, hroots⟩ := hsides _ h.roots_mem
  obtain ⟨t, rfl, hroot⟩ := List.map_eq_singleton_iff.1 hroots
  obtain ⟨us, rfl⟩ := exists_of_root hroot
  simp only [List.mem_cons, List.not_mem_nil, or_false] at hk
  rcases hk with rfl | rfl | rfl | rfl | rfl | rfl | rfl <;> exact ⟨_, rfl⟩

/-- A constant that is read from a child is written out. -/
private theorem isWhole_valueOf {c : Category} {ts : List Tree} (h : Tree.IsRead (.node c ts)) :
    ∀ v ∈ valueOf ((Grammar.Tree.node c ts).child? .constValue), v.IsWhole := by
  intro v hv
  cases hchild : (Grammar.Tree.node c ts).child? .constValue with
  | none =>
    rw [hchild] at hv
    cases hv
  | some t =>
    rw [hchild] at hv
    exact isWhole_valuesOf t (h.of_child? hchild).1 v (List.mem_of_mem_head? hv)

private theorem exists_valueOf {c : Category} {ts : List Tree} (h : Tree.IsRead (.node c ts))
    (hc : ∀ symbols ∈ rightSides c, .category .constValue ∈ symbols) :
    ∃ v, valueOf ((Grammar.Tree.node c ts).child? .constValue) = some v ∧ v.IsWhole := by
  obtain ⟨us, hchild, hread⟩ := h.exists_child hc
  obtain ⟨v, hv⟩ := exists_value hread
  have hvalue : valueOf ((Grammar.Tree.node c ts).child? .constValue) = some v := by
    rw [hchild, valueOf, Option.elim_some, hv]
    rfl
  exact ⟨v, hvalue, isWhole_valueOf h v hvalue⟩

/-! ### Declarations -/

section

variable (x : CommentIndex) {c : Category} {ts : List Tree}

private theorem isLabelled (h : Tree.IsRead (.node c ts))
    (hc : ∀ symbols ∈ rightSides c, 0 < symbols.count (.terminal .identifier)) :
    IsLabelled (Tree.line (.node c ts)) ((Grammar.Tree.node c ts).leafText .identifier 0) :=
  ⟨h.line_pos, h.isText_leafText hc⟩

private theorem isWhole_fieldOf (h : Tree.IsRead (.node .field ts)) : (fieldOf x (.node .field ts)).IsWhole :=
  ⟨isLabelled h (by decide), fits_typeOf .fieldType h rfl (by decide), isWhole_valueOf h⟩

private theorem isWhole_fieldsOf (h : Tree.IsRead (.node c ts)) : ∀ f ∈ fieldsOf x (.node c ts), f.IsWhole := by
  refine List.forall_mem_map.2 fun e he => ?_
  obtain ⟨us, rfl, hread⟩ := h.exists_element (by decide) rfl he
  exact isWhole_fieldOf x hread

private theorem isWhole_memberOf (h : Tree.IsRead (.node .member ts)) : (memberOf x (.node .member ts)).IsWhole := by
  refine ⟨isLabelled h (by decide), fun l hl => ?_⟩
  obtain ⟨t, hchild, rfl⟩ := Option.map_eq_some_iff.1 hl
  obtain ⟨hread, us, rfl⟩ := h.of_child? hchild
  exact isWhole_intOf hread

private theorem isWhole_enumerationOf (h : Tree.IsRead (.node .enumeration ts)) :
    (Declaration.enumeration (enumerationOf x (.node .enumeration ts))).IsWhole := by
  refine ⟨isLabelled h (by decide), List.forall_mem_map.2 fun e he => ?_⟩
  obtain ⟨us, rfl, hread⟩ := h.exists_element (by decide) rfl he
  exact isWhole_memberOf x hread

private theorem isWhole_constantOf (h : Tree.IsRead (.node .constant ts)) :
    (constantOf x (.node .constant ts)).IsWhole :=
  ⟨isLabelled h (by decide), fits_typeOf .fieldType h rfl (by decide), exists_valueOf h (by decide)⟩

private theorem isWhole_functionOf (h : Tree.IsRead (.node .function ts)) :
    (functionOf x (.node .function ts)).IsWhole := by
  refine ⟨isLabelled h (by decide), fits_typeOf .functionType h rfl (by decide), isWhole_fieldsOf x h, ?_⟩
  show ∀ a ∈ ((Grammar.Tree.node .function ts).child? .throws).elim [] (fieldsOf x), a.IsWhole
  cases hchild : (Grammar.Tree.node .function ts).child? .throws with
  | none => exact List.forall_mem_nil _
  | some t =>
    obtain ⟨hread, us, rfl⟩ := h.of_child? hchild
    exact isWhole_fieldsOf x hread

private theorem isWhole_serviceOf (h : Tree.IsRead (.node .service ts)) :
    (serviceOf x (.node .service ts)).IsWhole := by
  refine ⟨isLabelled h (by decide), fun name hname => ?_, List.forall_mem_map.2 fun e he => ?_⟩
  · -- the name of the parent is the second one, which is there if the word before it is
    have hsides : ∀ symbols ∈ rightSides .service,
        .terminal .kwExtends ∈ symbols → 1 < symbols.count (.terminal .identifier) := by decide
    obtain ⟨hextends, heq⟩ := Option.ite_some_none_eq_some.1 hname
    rw [← heq]
    exact h.isText_of_lt (hsides _ h.roots_mem (Tree.any_leaves_iff.1 hextends))
  · obtain ⟨us, rfl, hread⟩ := h.exists_element (by decide) rfl he
    exact isWhole_functionOf x hread

/-! ### Statements -/

private theorem exists_definition (h : Tree.IsRead (.node c ts))
    (hc : c ∈ [.constant, .typedef, .enumeration, .struct, .union, .exception, .service]) :
    ∃ statement, definitionOf? x (.node c ts) = some statement ∧ statement.IsWhole := by
  simp only [List.mem_cons, List.not_mem_nil, or_false] at hc
  rcases hc with rfl | rfl | rfl | rfl | rfl | rfl | rfl
  · exact ⟨_, rfl, isWhole_constantOf x h⟩
  · exact ⟨_, rfl, isLabelled h (by decide), fits_typeOf .fieldType h rfl (by decide)⟩
  · exact ⟨_, rfl, isWhole_enumerationOf x h⟩
  · exact ⟨_, rfl, isLabelled h (by decide), isWhole_fieldsOf x h⟩
  · exact ⟨_, rfl, isLabelled h (by decide), isWhole_fieldsOf x h⟩
  · exact ⟨_, rfl, isLabelled h (by decide), isWhole_fieldsOf x h⟩
  · exact ⟨_, rfl, isWhole_serviceOf x h⟩

private theorem exists_scope (h : Tree.IsRead (.node .scope ts)) :
    ∃ statement, statementOf? x (.node .scope ts) = some statement ∧ statement.IsWhole := by
  have hsides : ∀ symbols ∈ rightSides .scope,
      .terminal .star ∈ symbols ∨ 1 < symbols.count (.terminal .identifier) := by decide
  have hname := isLabelled h (by decide)
  unfold statementOf?
  dsimp only
  split
  · exact ⟨_, rfl, hname, .inl rfl⟩
  · rename_i hstar
    rw [Tree.any_leaves_iff] at hstar
    exact ⟨_, rfl, ⟨hname.line, h.isText_of_lt ((hsides _ h.roots_mem).resolve_left hstar)⟩, .inr hname.name⟩

/-- Every element of the list of statements stands for a statement. -/
private theorem exists_statement (h : Tree.IsRead (.node c ts)) (hc : c ∈ Tree.elementCategories .statements) :
    ∃ statement, statementOf? x (.node c ts) = some statement ∧ statement.IsWhole := by
  simp only [Tree.elementCategories, List.mem_cons, List.not_mem_nil, or_false] at hc
  rcases hc with rfl | rfl | rfl | rfl
  · exact ⟨_, rfl, h.line_pos, isEnclosed_unquote (h.isText_leafText (by decide))⟩
  · exact ⟨_, rfl, h.line_pos, isEnclosed_unquote (h.isText_leafText (by decide))⟩
  · exact exists_scope x h
  · have hsides : ∀ symbols ∈ rightSides .definition,
        ∃ k ∈ [Category.constant, .typedef, .enumeration, .struct, .union, .exception, .service],
          symbols = [.category k] := by decide
    obtain ⟨k, hk, hroots⟩ := hsides _ h.roots_mem
    obtain ⟨t, rfl, hroot⟩ := List.map_eq_singleton_iff.1 hroots
    obtain ⟨us, rfl⟩ := exists_of_root hroot
    exact exists_definition x (h.of_mem List.mem_cons_self) hk

private theorem isWhole_ofTree {t : Tree} (h : t.IsRead) (hroot : t.root = .category .document) :
    (Document.ofTree x t).IsWhole := by
  obtain ⟨ts, rfl⟩ := exists_of_root hroot
  refine ⟨rfl, fun statement hstatement => ?_⟩
  obtain ⟨e, he, hsome⟩ := List.mem_filterMap.1 hstatement
  obtain ⟨hread, k, hk, us, rfl⟩ := h.of_mem_listed (by decide) he
  obtain ⟨other, hother, hwhole⟩ := exists_statement x hread hk
  obtain rfl : other = statement := Option.some.inj (hother.symm.trans hsome)
  exact hwhole

end

/-- What a text is parsed to is whole. -/
theorem isWhole_of_parse {text : String} {d : Document} (h : parse text = .ok d) : d.IsWhole := by
  unfold parse at h
  cases hparse : parseTree text.toList with
  | error e =>
    rw [hparse] at h
    cases h
  | ok parsed =>
    rw [hparse] at h
    dsimp only at h
    split at h
    · cases h
      obtain ⟨hread | hempty, hroot⟩ := Tree.isRead_of_parseTree hparse
      · exact isWhole_ofTree _ hread hroot
      · rw [hempty]
        exact ⟨rfl, List.forall_mem_nil _⟩
    · cases h

end ThriftGateway.Idl
