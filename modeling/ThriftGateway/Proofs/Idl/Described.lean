import Mathlib.Data.List.Basic
import ThriftGateway.Proofs.Idl.Derived
import ThriftGateway.Proofs.Idl.Reading

/-!
# The nodes that have descriptions

`Document.descriptions` lists the lines and descriptions of everything in a document that can have a description, and
`Tree.described` the nodes of a parse tree that such things are read from.  They belong together in order
(`descriptions_ofTree`).
-/

namespace ThriftGateway.Idl

open Grammar (Position Token)
open scoped List

/-! ### In documents -/

def Field.descriptions (f : Field) : List (Nat × Option String) := [(f.line, f.description)]

def Member.descriptions (m : Member) : List (Nat × Option String) := [(m.line, m.description)]

def Declaration.descriptions : Declaration → List (Nat × Option String)
  | .struct s => (s.line, s.description) :: s.fields.flatMap Field.descriptions
  | .enumeration e => (e.line, e.description) :: e.members.flatMap Member.descriptions
  | .typedef t => [(t.line, t.description)]

def Function.descriptions (f : Function) : List (Nat × Option String) :=
  (f.line, f.description) :: (f.arguments.flatMap Field.descriptions ++ f.throws.flatMap Field.descriptions)

def Statement.descriptions : Statement → List (Nat × Option String)
  | .constant c => [(c.line, c.description)]
  | .declaration d => d.descriptions
  | .service s => (s.line, s.description) :: s.functions.flatMap Function.descriptions
  | .inclusion .. | .cppInclusion .. | .scope .. => []

/-- The lines that the things in a document begin on, each with its description, in the order of the text. -/
def Document.descriptions (d : Document) : List (Nat × Option String) := d.body.flatMap Statement.descriptions

/-! ### In trees -/

/-- The categories of nodes that can have descriptions. -/
def Category.isDescribed : Category → Bool
  | constant | typedef | enumeration | member | struct | union | exception | service | function | field => true
  | _ => false

/-- The categories of nodes that comments behind them can describe. -/
def Category.takesTrailing : Category → Bool
  | member | function | field => true
  | _ => false

/-- The categories without such nodes in them. -/
def Category.isBare (c : Category) : Bool :=
  !c.isDescribed && c ∉ [document, statements, definition, members, fields, functions, throws]

namespace Tree

mutual
/-- The nodes of a tree that can have descriptions, each before those in it. -/
def described : Tree → List Tree
  | .leaf _ => []
  | .node c ts => (if c.isDescribed then [.node c ts] else []) ++ describedAll ts

def describedAll : List Tree → List Tree
  | [] => []
  | t :: ts => described t ++ describedAll ts
end

/-- Comments behind the node can describe it. -/
def takesTrailing : Tree → Bool
  | .leaf _ => false
  | .node c _ => c.takesTrailing

/-- The line and the description of the node. -/
def note (x : CommentIndex) (t : Tree) : Nat × Option String := (t.line, descriptionOf x t t.takesTrailing)

/-- Whether the symbol can have such nodes in it. -/
def carries : Piece → Bool
  | .terminal _ => false
  | .category c => !c.isBare

mutual
theorem described_of_not_carries : (t : Tree) → Derives t → carries t.root = false → described t = []
  | .leaf _, _, _ => rfl
  | .node c ts, h, hc => by
    have hbare :
      (productions.all fun p => carries (.category p.category) || p.symbols.all fun x => !carries x) = true := by
      decide
    have hparts := List.all_eq_true.1 hbare _ h.2.1
    have hc : carries (.category c) = false := hc
    rw [Bool.or_eq_true, hc] at hparts
    have hnot : c.isDescribed = false := by
      simp [carries, Category.isBare] at hc
      exact hc.1
    rw [described, hnot, if_neg Bool.false_ne_true, List.nil_append]
    refine describedAll_of_not_carries ts h.2.2 fun t ht => ?_
    simpa using List.all_eq_true.1 (hparts.resolve_left Bool.false_ne_true) t.root (List.mem_map_of_mem ht)

private theorem describedAll_of_not_carries : (ts : List Tree) → DeriveAll ts → (∀ t ∈ ts, carries t.root = false) →
    describedAll ts = []
  | [], _, _ => rfl
  | t :: ts, h, hts => by
    rw [describedAll, described_of_not_carries t h.1 (hts t List.mem_cons_self),
      describedAll_of_not_carries ts h.2 fun u hu => hts u (List.mem_cons_of_mem _ hu)]
    rfl
end

private theorem describedAll_filter {ts : List Tree} (h : DeriveAll ts) :
    describedAll (ts.filter fun t => carries t.root) = describedAll ts := by
  induction ts with
  | nil => rfl
  | cons t ts ih =>
    rw [List.filter_cons]
    cases ht : carries t.root with
    | true => rw [if_pos rfl, describedAll, describedAll, ih h.2]
    | false => rw [if_neg Bool.false_ne_true, ih h.2, describedAll, described_of_not_carries t h.1 ht, List.nil_append]

private theorem child?_filter (c : Category) (ts : List Tree) {k : Category} (hk : carries (.category k) = true) :
    (Grammar.Tree.node c (ts.filter fun t => carries t.root)).child? k = (Grammar.Tree.node c ts).child? k := by
  unfold Grammar.Tree.child? Grammar.Tree.children
  rw [List.find?_filter]
  congr 1
  funext t
  cases t with
  | leaf token => simp
  | node d us =>
    by_cases hd : d = k
    · simp [hd, Grammar.Tree.root, hk]
    · simp [hd]

/-! ### Below a node -/

/-- The categories that stand below a category, in order, and can have such nodes in them. -/
def carriers : Category → List Category
  | .document => [.statements]
  | .struct | .union | .exception | .throws => [.fields]
  | .enumeration => [.members]
  | .service => [.functions]
  | .function => [.fields, .throws]
  | _ => []

/-- Categories below which there is one node after the other, or one of several. -/
def branches : List Category := [.statements, .members, .fields, .functions, .definition]

private theorem productions_carry : (productions.all fun p => p.category ∈ branches ||
    (p.symbols.filter carries).isSublist ((carriers p.category).map Grammar.Symbol.category)) = true := by
  decide

private theorem carriers_carry :
    ∀ c ∈ categories, (carriers c).Nodup ∧ (carriers c).all (fun k => carries (.category k)) = true := by
  decide

/-- Trees of some of these categories, in order, are found by their categories. -/
private theorem describedAll_of_sublist (c : Category) {ks : List Category} {us : List Tree}
    (h : us.map Grammar.Tree.root <+ ks.map Grammar.Symbol.category) (hks : ks.Nodup) :
    describedAll us = ks.flatMap fun k => ((Grammar.Tree.node c us).child? k).elim [] described := by
  induction ks generalizing us with
  | nil =>
    rw [List.map_nil, List.sublist_nil, List.map_eq_nil_iff] at h
    rw [h]
    rfl
  | cons k ks ih =>
    rw [List.nodup_cons] at hks
    rw [List.map_cons, List.sublist_cons_iff] at h
    rw [List.flatMap_cons]
    rcases h with h | ⟨roots, hroots, h⟩
    · have hnone : (Grammar.Tree.node c us).child? k = none := by
        unfold Grammar.Tree.child? Grammar.Tree.children
        rw [List.find?_eq_none]
        intro u hu
        have hroot := h.mem (List.mem_map_of_mem hu)
        cases u with
        | leaf token => simp
        | node d vs =>
          obtain ⟨k', hk', heq⟩ := List.mem_map.1 hroot
          obtain rfl : k' = d := by simpa [Grammar.Tree.root] using heq
          simpa using ne_of_mem_of_not_mem hk' hks.1
      rw [hnone, ih h hks.2]
      rfl
    · obtain ⟨u, us, rfl, hu, rfl⟩ := List.map_eq_cons_iff.1 hroots
      cases u with
      | leaf token => cases hu
      | node d vs =>
        obtain rfl : d = k := by simpa [Grammar.Tree.root] using hu
        rw [describedAll, child?_node, if_pos rfl, Option.elim_some, ih h hks.2]
        congr 1
        refine List.flatMap_congr fun k hk => ?_
        rw [child?_node, if_neg (ne_of_mem_of_not_mem hk hks.1).symm]

/-- What is below a node and has such nodes in it. -/
private theorem describedAll_of_carriers {c : Category} {ts : List Tree} (h : Derives (.node c ts))
    (hc : c ∉ branches) :
    describedAll ts = (carriers c).flatMap fun k => ((Grammar.Tree.node c ts).child? k).elim [] described := by
  have hcarry := List.all_eq_true.1 productions_carry _ h.2.1
  rw [Bool.or_eq_true, decide_eq_true_eq, or_iff_right hc, List.isSublist_iff_sublist, List.filter_map] at hcarry
  have hroots : (ts.filter fun t => carries t.root).map Grammar.Tree.root <+ (carriers c).map Grammar.Symbol.category :=
    hcarry
  obtain ⟨hnodup, hcarries⟩ := carriers_carry c (List.mem_of_getElem? (categories_number c))
  rw [← describedAll_filter h.2.2, describedAll_of_sublist c hroots hnodup]
  exact List.flatMap_congr fun k hk => by rw [child?_filter c ts (List.all_eq_true.1 hcarries k hk)]

/-! ### Lists -/

/-- The categories of the elements of a list. -/
def elementCategories : Category → List Category
  | .statements => [.inclusion, .cppInclusion, .scope, .definition]
  | .members => [.member]
  | .fields => [.field]
  | .functions => [.function]
  | _ => []

private theorem productions_list : ∀ list ∈ [Category.statements, .members, .fields, .functions],
    list ∉ elementCategories list ∧ productions.all (fun p => p.category ≠ list ||
      p.symbols.all fun x => x = .category list || (elementCategories list).any fun k => x = .category k) = true := by
  decide

mutual
private theorem described_elements {list : Category} (hlist : list.isDescribed = false) : (t : Tree) →
    (t.elements list).flatMap described = described t
  | .leaf _ => rfl
  | .node d ts => by
    rw [Grammar.Tree.elements]
    split
    · rename_i hd
      rw [described_elementsAll hlist ts, described, hd, hlist]
      rfl
    · rw [List.flatMap_singleton]

private theorem described_elementsAll {list : Category} (hlist : list.isDescribed = false) : (ts : List Tree) →
    (Grammar.Tree.elementsAll list ts).flatMap described = describedAll ts
  | [] => rfl
  | t :: ts => by
    rw [Grammar.Tree.elementsAll, List.flatMap_append, described_elements hlist t, described_elementsAll hlist ts,
      describedAll]
end

/-- What an element of a list can be. -/
def IsElement (list : Category) (e : Tree) : Prop :=
  Derives e ∧ ∃ k ∈ elementCategories list, e.root = .category k

mutual
theorem isElement_of_mem_elements {list : Category}
    (hlist : list ∈ [Category.statements, .members, .fields, .functions]) :
    (t : Tree) → Derives t → (t.root = .category list ∨ ∃ k ∈ elementCategories list, t.root = .category k) →
    ∀ e ∈ t.elements list, IsElement list e
  | .leaf _, _, hroot => by simp [Grammar.Tree.root] at hroot
  | .node d ts, h, hroot => by
    have hproductions := productions_list list hlist
    rw [Grammar.Tree.elements]
    split
    · rename_i hd
      refine isElement_of_mem_elementsAll hlist ts h.2.2 fun t ht => ?_
      have hsymbols := List.all_eq_true.1 hproductions.2 _ h.2.1
      rw [Bool.or_eq_true, or_iff_right (by simp [hd])] at hsymbols
      have hsymbol := List.all_eq_true.1 hsymbols t.root (List.mem_map_of_mem ht)
      simpa using hsymbol
    · rename_i hd
      intro e he
      obtain rfl := List.mem_singleton.1 he
      exact ⟨h, hroot.resolve_left fun heq => hd (by simpa [Grammar.Tree.root] using heq)⟩

private theorem isElement_of_mem_elementsAll {list : Category}
    (hlist : list ∈ [Category.statements, .members, .fields, .functions]) :
    (ts : List Tree) → DeriveAll ts →
    (∀ t ∈ ts, t.root = .category list ∨ ∃ k ∈ elementCategories list, t.root = .category k) →
    ∀ e ∈ Grammar.Tree.elementsAll list ts, IsElement list e
  | [], _, _ => by simp [Grammar.Tree.elementsAll]
  | t :: ts, h, hts => by
    intro e he
    rw [Grammar.Tree.elementsAll, List.mem_append] at he
    rcases he with he | he
    · exact isElement_of_mem_elements hlist t h.1 (hts t List.mem_cons_self) e he
    · exact isElement_of_mem_elementsAll hlist ts h.2 (fun u hu => hts u (List.mem_cons_of_mem _ hu)) e he
end

/-- What is told of the elements of a list, one by one, is told of the nodes in the list. -/
private theorem flatMap_listed {β : Type} {list : Category}
    (hlist : list ∈ [Category.statements, .members, .fields, .functions])
    {c : Category} {ts : List Tree} (h : DeriveAll ts) {f : Tree → List β} {g : Tree → β}
    (hf : ∀ e, IsElement list e → f e = (described e).map g) :
    (listed (.node c ts) list).flatMap f =
      (((Grammar.Tree.node c ts).child? list).elim [] described).map g := by
  have hdescribed : ∀ list ∈ [Category.statements, .members, .fields, .functions], list.isDescribed = false := by decide
  have hseparator : ∀ list ∈ [Category.statements, .members, .fields, .functions],
      Category.separator ∉ elementCategories list := by decide
  unfold listed
  cases hchild : (Grammar.Tree.node c ts).child? list with
  | none => rfl
  | some l =>
    rw [Option.elim_some, Option.elim_some]
    have hl : Derives l := deriveAll_iff.1 h l (List.mem_of_find?_eq_some hchild)
    have hroot : l.root = .category list := by
      have hfound := List.find?_some hchild
      cases l with
      | leaf token => cases hfound
      | node d us => simpa [Grammar.Tree.root] using hfound
    have helements := isElement_of_mem_elements hlist l hl (.inl hroot)
    rw [List.filter_eq_self.2, ← described_elements (hdescribed list hlist) l, List.map_flatMap]
    · exact List.flatMap_congr fun e he => hf e (helements e he)
    · intro e he
      obtain ⟨-, k, hk, hek⟩ := helements e he
      cases e with
      | leaf token => cases hek
      | node d us =>
        obtain rfl : d = k := by simpa [Grammar.Tree.root] using hek
        simpa using ne_of_mem_of_not_mem hk (hseparator list hlist)

end Tree

/-! ### Descriptions of nodes -/

section

variable {x : CommentIndex} {c : Category} {ts : List Tree}

open Tree (described describedAll note carriers branches)

theorem exists_of_root {t : Tree} {k : Category} (h : t.root = .category k) : ∃ ts, t = .node k ts := by
  cases t with
  | leaf token => cases h
  | node d ts => exact ⟨ts, by rw [show d = k by simpa [Grammar.Tree.root] using h]⟩

/-- Nothing with a description stands below the simplest nodes. -/
private theorem described_single (h : Tree.Derives (.node c ts)) (hc : c ∈ [.constant, .typedef, .member, .field]) :
    described (.node c ts) = [.node c ts] := by
  have hcategory : ∀ c ∈ [Category.constant, .typedef, .member, .field],
      c.isDescribed = true ∧ carriers c = [] ∧ c ∉ branches := by decide
  obtain ⟨hdescribed, hcarriers, hbranches⟩ := hcategory c hc
  rw [described, hdescribed, Tree.describedAll_of_carriers h hbranches, hcarriers]
  rfl

private theorem descriptions_fieldsOf (h : Tree.DeriveAll ts) :
    (fieldsOf x (.node c ts)).flatMap Field.descriptions =
      (((Grammar.Tree.node c ts).child? .fields).elim [] described).map (note x) := by
  unfold fieldsOf
  rw [List.flatMap_map]
  refine Tree.flatMap_listed (by decide) h fun e he => ?_
  obtain ⟨hderives, k, hk, hroot⟩ := he
  obtain rfl := List.mem_singleton.1 hk
  obtain ⟨us, rfl⟩ := exists_of_root hroot
  rw [described_single hderives (by decide)]
  rfl

private theorem descriptions_membersOf (h : Tree.DeriveAll ts) :
    ((Tree.listed (.node c ts) .members).map (memberOf x)).flatMap Member.descriptions =
      (((Grammar.Tree.node c ts).child? .members).elim [] described).map (note x) := by
  rw [List.flatMap_map]
  refine Tree.flatMap_listed (by decide) h fun e he => ?_
  obtain ⟨hderives, k, hk, hroot⟩ := he
  obtain rfl := List.mem_singleton.1 hk
  obtain ⟨us, rfl⟩ := exists_of_root hroot
  rw [described_single hderives (by decide)]
  rfl

private theorem descriptions_functionOf (h : Tree.Derives (.node .function ts)) :
    (functionOf x (.node .function ts)).descriptions = (described (.node .function ts)).map (note x) := by
  have hthrows : ((functionOf x (.node .function ts)).throws).flatMap Field.descriptions =
      (((Grammar.Tree.node .function ts).child? .throws).elim [] described).map (note x) := by
    show (((Grammar.Tree.node .function ts).child? .throws).elim [] (fieldsOf x)).flatMap Field.descriptions = _
    cases hchild : (Grammar.Tree.node .function ts).child? .throws with
    | none => rfl
    | some t =>
      have ht : Tree.Derives t := deriveAll_iff.1 h.2.2 t (List.mem_of_find?_eq_some hchild)
      have hroot := List.find?_some hchild
      cases t with
      | leaf token => cases hroot
      | node d us =>
        obtain rfl : d = .throws := by simpa using hroot
        rw [Option.elim_some, Option.elim_some, descriptions_fieldsOf ht.2.2, described,
          Tree.describedAll_of_carriers ht (by decide)]
        simp [carriers, Category.isDescribed]
  rw [Function.descriptions, hthrows, show (functionOf x (.node .function ts)).arguments =
    fieldsOf x (.node .function ts)
    from rfl, descriptions_fieldsOf h.2.2, described, Tree.describedAll_of_carriers h (by decide)]
  simp [carriers, Category.isDescribed, note, Tree.takesTrailing, Category.takesTrailing, functionOf]

private theorem descriptions_functionsOf (h : Tree.DeriveAll ts) :
    ((Tree.listed (.node c ts) .functions).map (functionOf x)).flatMap Function.descriptions =
      (((Grammar.Tree.node c ts).child? .functions).elim [] described).map (note x) := by
  rw [List.flatMap_map]
  refine Tree.flatMap_listed (by decide) h fun e he => ?_
  obtain ⟨hderives, k, hk, hroot⟩ := he
  obtain rfl := List.mem_singleton.1 hk
  obtain ⟨us, rfl⟩ := exists_of_root hroot
  exact descriptions_functionOf hderives

private theorem descriptions_structOf (form : StructForm) (h : Tree.Derives (.node c ts))
    (hc : c ∈ [.struct, .union, .exception]) :
    (Declaration.struct (structOf x form (.node c ts))).descriptions = (described (.node c ts)).map (note x) := by
  have hcategory : ∀ c ∈ [Category.struct, .union, .exception], c.isDescribed = true ∧ c.takesTrailing = false ∧
      carriers c = [.fields] ∧ c ∉ branches := by decide
  obtain ⟨hdescribed, htrailing, hcarriers, hbranches⟩ := hcategory c hc
  rw [described, hdescribed, if_pos rfl, List.map_append, Tree.describedAll_of_carriers h hbranches, hcarriers,
    List.flatMap_singleton, ← descriptions_fieldsOf h.2.2]
  simp [Declaration.descriptions, structOf, note, Tree.takesTrailing, htrailing]

/-- What a definition is read as has the descriptions of the nodes in it. -/
private theorem descriptions_definitionOf? {t : Tree} (h : Tree.Derives t) {k : Category}
    (hk : k ∈ [.constant, .typedef, .enumeration, .struct, .union, .exception, .service]) (ht : t.root = .category k) :
    (definitionOf? x t).elim [] Statement.descriptions = (described t).map (note x) := by
  obtain ⟨ts, rfl⟩ := exists_of_root ht
  simp only [List.mem_cons, List.not_mem_nil, or_false] at hk
  rcases hk with rfl | rfl | rfl | rfl | rfl | rfl | rfl
  · rw [described_single h (by decide)]
    rfl
  · rw [described_single h (by decide)]
    rfl
  · show (Declaration.enumeration (enumerationOf x _)).descriptions = _
    rw [described, Tree.describedAll_of_carriers h (by decide), Declaration.descriptions, enumerationOf,
      descriptions_membersOf h.2.2]
    simp [carriers, Category.isDescribed, note, Tree.takesTrailing, Category.takesTrailing]
  · exact descriptions_structOf .struct h (by decide)
  · exact descriptions_structOf .union h (by decide)
  · exact descriptions_structOf .exception h (by decide)
  · show (Statement.service (serviceOf x _)).descriptions = _
    rw [described, Tree.describedAll_of_carriers h (by decide), Statement.descriptions, serviceOf,
      descriptions_functionsOf h.2.2]
    simp [carriers, Category.isDescribed, note, Tree.takesTrailing, Category.takesTrailing]

/-- A definition is one node. -/
private theorem productions_definition : (productions.all fun p => p.category ≠ .definition ||
    [Category.constant, .typedef, .enumeration, .struct, .union, .exception, .service].any fun k =>
      p.symbols = [.category k]) = true := by
  decide

private theorem descriptions_statementOf? {t : Tree} (ht : Tree.IsElement .statements t) :
    (statementOf? x t).elim [] Statement.descriptions = (described t).map (note x) := by
  obtain ⟨h, k, hk, hroot⟩ := ht
  obtain ⟨ts, rfl⟩ := exists_of_root hroot
  simp only [Tree.elementCategories, List.mem_cons, List.not_mem_nil, or_false] at hk
  rcases hk with rfl | rfl | rfl | rfl
  · rw [Tree.described_of_not_carries _ h rfl]
    rfl
  · rw [Tree.described_of_not_carries _ h rfl]
    rfl
  · rw [Tree.described_of_not_carries _ h rfl]
    unfold statementOf?
    dsimp only
    split <;> rfl
  · have hsymbols := List.all_eq_true.1 productions_definition _ h.2.1
    rw [Bool.or_eq_true, or_iff_right (by simp)] at hsymbols
    obtain ⟨k, hk, hroots⟩ := List.any_eq_true.1 hsymbols
    obtain ⟨d, rfl, hd⟩ := List.map_eq_singleton_iff.1 (of_decide_eq_true hroots)
    rw [show statementOf? x (.node .definition [d]) = definitionOf? x d from rfl,
      descriptions_definitionOf? h.2.2.1 hk hd]
    simp [described, describedAll, Category.isDescribed]

/-- The descriptions of a document are those of the nodes of its tree, in order. -/
theorem descriptions_ofTree (x : CommentIndex) {t : Tree} (h : t.IsDerived) (hroot : t.root = .category .document) :
    (Document.ofTree x t).descriptions = (described t).map (note x) := by
  obtain ⟨ts, rfl⟩ := exists_of_root hroot
  rcases h with h | h
  · have hbody : (Document.ofTree x (.node .document ts)).descriptions =
        (Tree.listed (.node .document ts) .statements).flatMap fun e =>
          (statementOf? x e).elim [] Statement.descriptions := by
      show ((Tree.listed (.node .document ts) .statements).filterMap
        (statementOf? x)).flatMap Statement.descriptions = _
      generalize Tree.listed (.node .document ts) .statements = es
      induction es with
      | nil => rfl
      | cons e es ih =>
        rw [List.filterMap_cons, List.flatMap_cons, ← ih]
        cases statementOf? x e <;> simp
    rw [hbody, Tree.flatMap_listed (by decide) h.2.2 fun e he => descriptions_statementOf? he, described,
      Tree.describedAll_of_carriers h (by decide)]
    simp [carriers, Category.isDescribed]
  · rw [h]
    rfl

end

end ThriftGateway.Idl
