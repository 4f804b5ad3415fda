import ThriftGateway.Proofs.Graph.Likeness

/-!
# Typedefs replaced by what they name

A reference to a typedef of its own file that does not lead back to itself may be replaced by the type that the typedef
names (`Inlined`), wherever it stands in a document.  The types of the two libraries then stand for the same
(`expandType_inlined`): the expansion that goes through the typedef keeps it in mind while it is being expanded, but
never comes by it again.
-/

namespace ThriftGateway.Graph

open Idl (Declaration Document Field Function Service Statement TypeExpr)
open Source (Library Path ReferenceError Resolved)

/-! ### Libraries that differ in types only -/

section Alike

variable (R : TypeExpr → TypeExpr → Prop)

/-- Declarations that differ in the types that they mention only. -/
inductive DeclarationAlike : Declaration → Declaration → Prop
  | struct {s s'} (h : StructAlike R s s') : DeclarationAlike (.struct s) (.struct s')
  | enumeration (e : Idl.Enumeration) : DeclarationAlike (.enumeration e) (.enumeration e)
  | typedef {d : Idl.Typedef} {target : TypeExpr} (h : R d.target target) :
      DeclarationAlike (.typedef d) (.typedef { d with target })

/-- Statements that differ in the types that they mention only. -/
inductive StatementAlike : Statement → Statement → Prop
  | inclusion (line : Nat) (path : String) : StatementAlike (.inclusion line path) (.inclusion line path)
  | cppInclusion (line : Nat) (path : String) : StatementAlike (.cppInclusion line path) (.cppInclusion line path)
  | scope (line : Nat) (language name : String) : StatementAlike (.scope line language name) (.scope line language name)
  | constant {c : Idl.Constant} {type : TypeExpr} (h : R c.type type) :
      StatementAlike (.constant c) (.constant { c with type })
  | declaration {d d'} (h : DeclarationAlike R d d') : StatementAlike (.declaration d) (.declaration d')
  | service {s : Service} {functions : List Function} (h : List.Forall₂ (FunctionAlike R) s.functions functions) :
      StatementAlike (.service s) (.service { s with functions })

/-- Documents that differ in the types that their statements mention only. -/
def DocumentAlike (d d' : Document) : Prop :=
  ∃ body, List.Forall₂ (StatementAlike R) d.body body ∧ d' = { d with body }

variable {R}

theorem DeclarationAlike.name {d d' : Declaration} (h : DeclarationAlike R d d') : d'.name = d.name := by
  cases h with
  | struct h =>
    obtain ⟨_, -, rfl⟩ := h
    rfl
  | enumeration | typedef => rfl

namespace DocumentAlike

variable {d d' : Document}

private theorem includes (h : DocumentAlike R d d') : d'.includes = d.includes := by
  obtain ⟨body, hbody, rfl⟩ := h
  unfold Document.includes
  dsimp only
  generalize d.body = statements at hbody ⊢
  induction hbody with
  | nil => rfl
  | cons hx _ ih =>
    rw [List.filterMap_cons, List.filterMap_cons, ih]
    cases hx <;> rfl

theorem declarations (h : DocumentAlike R d d') : List.Forall₂ (DeclarationAlike R) d.declarations d'.declarations := by
  obtain ⟨body, hbody, rfl⟩ := h
  unfold Document.declarations
  dsimp only
  generalize d.body = statements at hbody ⊢
  induction hbody with
  | nil => exact .nil
  | cons hx _ ih =>
    rw [List.filterMap_cons, List.filterMap_cons]
    cases hx with
    | declaration hd => exact .cons hd ih
    | inclusion | cppInclusion | scope | constant | service => exact ih

theorem declarationsNamed (h : DocumentAlike R d d') (name : String) :
    List.Forall₂ (DeclarationAlike R) (d.declarationsNamed name) (d'.declarationsNamed name) := by
  have hds := h.declarations
  unfold Document.declarationsNamed
  generalize d.declarations = ds at hds ⊢
  generalize d'.declarations = ds' at hds ⊢
  induction hds with
  | nil => exact .nil
  | cons hd _ ih =>
    rw [List.filter_cons, List.filter_cons, hd.name]
    split
    · exact .cons hd ih
    · exact ih

end DocumentAlike

end Alike

/-- Libraries that differ in the types that their documents mention only; `R` tells how the types in a file do. -/
def LibraryAlike (R : Path → TypeExpr → TypeExpr → Prop) (l l' : Library) : Prop :=
  List.Forall₂ (fun e e' => e'.1 = e.1 ∧ DocumentAlike (R e.1) e.2 e'.2) l.entries l'.entries

/-- References that mean declarations which differ in types only. -/
def ResolvedAlike (R : Path → TypeExpr → TypeExpr → Prop) (r r' : Resolved) : Prop :=
  r'.file = r.file ∧ DeclarationAlike (R r.file) r.declaration r'.declaration

section Resolve

variable {R : Path → TypeExpr → TypeExpr → Prop} {l l' : Library}

private theorem LibraryAlike.document? (h : LibraryAlike R l l') (p : Path) :
    (l.document? p = none ∧ l'.document? p = none) ∨
      ∃ d d', l.document? p = some d ∧ l'.document? p = some d' ∧ DocumentAlike (R p) d d' := by
  unfold LibraryAlike at h
  unfold Library.document?
  generalize l.entries = es at h ⊢
  generalize l'.entries = es' at h ⊢
  induction h with
  | nil => exact Or.inl ⟨rfl, rfl⟩
  | @cons e e' es es' he _ ih =>
    rw [List.find?_cons, List.find?_cons, he.1]
    by_cases hp : e.1 = p
    · rw [decide_eq_true hp]
      exact Or.inr ⟨e.2, e'.2, rfl, rfl, hp ▸ he.2⟩
    · rw [decide_eq_false hp]
      exact ih

private theorem resolveIn_alike (h : LibraryAlike R l l') (reference name : String) (file context : Path) :
    Agree False (ResolvedAlike R) (l.resolveIn reference name file context)
      (l'.resolveIn reference name file context) := by
  unfold Library.resolveIn
  obtain ⟨hd, hd'⟩ | ⟨d, d', hd, hd', hdocument⟩ := h.document? file
  · rw [hd, hd']
    exact .error _
  · rw [hd, hd']
    dsimp only
    have hnamed := hdocument.declarationsNamed name
    generalize d.declarationsNamed name = ds at hnamed ⊢
    generalize d'.declarationsNamed name = ds' at hnamed ⊢
    cases hnamed with
    | nil => exact .error _
    | cons he hes =>
      cases hes with
      | nil => exact .ok ⟨rfl, he⟩
      | cons => exact .error _

/-- References mean the same in libraries that differ in types only, up to these types. -/
private theorem resolve_alike (h : LibraryAlike R l l') (reference : String) (context : Path) :
    Agree False (ResolvedAlike R) (l.resolve reference context) (l'.resolve reference context) := by
  have hstem : ∀ stem, l'.resolveStem reference stem context = l.resolveStem reference stem context := by
    intro stem
    unfold Library.resolveStem
    obtain ⟨hd, hd'⟩ | ⟨d, d', hd, hd', hdocument⟩ := h.document? context
    · rw [hd, hd']
    · rw [hd, hd']
      dsimp only
      rw [hdocument.includes]
  unfold Library.resolve
  split
  · exact resolveIn_alike h _ _ _ _
  · rw [hstem]
    split
    · exact .error _
    · exact resolveIn_alike h _ _ _ _
  · exact .error _

private theorem exists_resolve_alike (h : LibraryAlike R l l') {reference : String} {file f : Path} {d : Declaration}
    (hr : l.resolve reference file = .ok ⟨f, d⟩) :
    ∃ d', l'.resolve reference file = .ok ⟨f, d'⟩ ∧ DeclarationAlike (R f) d d' := by
  have hagree := resolve_alike h reference file
  rw [hr] at hagree
  generalize l'.resolve reference file = r' at hagree ⊢
  cases hagree with
  | @ok _ r' hr' =>
    obtain ⟨f', d'⟩ := r'
    obtain ⟨rfl, hd⟩ := hr'
    exact ⟨d', rfl, hd⟩

private theorem resolve_error_alike (h : LibraryAlike R l l') {reference : String} {file : Path} {e : ReferenceError}
    (hr : l.resolve reference file = .error e) : l'.resolve reference file = .error e := by
  have hagree := resolve_alike h reference file
  rw [hr] at hagree
  generalize l'.resolve reference file = r' at hagree ⊢
  cases hagree with
  | error => rfl
  | excused hp => exact hp.elim

end Resolve

/-! ### Inlining -/

/-- Following a type in a file, one comes by a typedef, which is told by its file and its name. -/
inductive Passes (l : Library) : Path → TypeExpr → Path × String → Prop
  | here {file line reference f d} (h : l.resolve reference file = .ok ⟨f, .typedef d⟩) :
      Passes l file (.named line reference) (f, d.name)
  | behind {file line reference f d key} (h : l.resolve reference file = .ok ⟨f, .typedef d⟩)
      (ht : Passes l f d.target key) : Passes l file (.named line reference) key
  | list {file line element key} (h : Passes l file element key) : Passes l file (.list line element) key
  | field {file f key} (h : Passes l file f.type key) : Passes l file (.field f) key

/-- Some references to typedefs of the file itself, which do not come by themselves again, are replaced by what they
name.  No type is a declaration itself: in documents that are read, none is. -/
inductive Inlined (l : Library) (file : Path) : TypeExpr → TypeExpr → Prop
  | base (line : Nat) (name : String) : Inlined l file (.base line name) (.base line name)
  | list {line t t'} (h : Inlined l file t t') : Inlined l file (.list line t) (.list line t')
  | set {line t t'} (h : Inlined l file t t') : Inlined l file (.set line t) (.set line t')
  | map {line t t' u u'} (h : Inlined l file t t') (h' : Inlined l file u u') :
      Inlined l file (.map line t u) (.map line t' u')
  | named (line : Nat) (reference : String) : Inlined l file (.named line reference) (.named line reference)
  | void (line : Nat) : Inlined l file (.void line) (.void line)
  | field {f : Field} {type : TypeExpr} (h : Inlined l file f.type type) :
      Inlined l file (.field f) (.field { f with type })
  | other (kind : Option Idl.Kind) : Inlined l file (.other kind) (.other kind)
  | inline {line reference d t} (h : l.resolve reference file = .ok ⟨file, .typedef d⟩)
      (hacyclic : ¬Passes l file d.target (file, d.name)) (ht : Inlined l file d.target t) :
      Inlined l file (.named line reference) t

/-- A library in which some references are replaced by what they name. -/
abbrev Inlines (l l' : Library) : Prop := LibraryAlike (Inlined l) l l'

section Expand

variable {l l' : Library}

/-- From every typedef that is being expanded, one comes by what one comes by from here. -/
def Leading (l : Library) (busy : List (Path × String)) (file : Path) (t : TypeExpr) : Prop :=
  ∀ k ∈ busy, ∀ reference context d, l.resolve reference context = .ok ⟨k.1, .typedef d⟩ → d.name = k.2 →
    ∀ key, Passes l file t key → Passes l k.1 d.target key

private theorem Leading.mono {busy : List (Path × String)} {file f : Path} {t u : TypeExpr} (h : Leading l busy file t)
    (hu : ∀ key, Passes l f u key → Passes l file t key) : Leading l busy f u :=
  fun k hk reference context d hr hn key hkey => h k hk reference context d hr hn key (hu key hkey)

/-- A typedef that is met is being expanded from then on. -/
private theorem Leading.enter {busy : List (Path × String)} {file f : Path} {line : Nat} {reference : String}
    {d : Idl.Typedef}
    (h : Leading l busy file (.named line reference)) (hr : l.resolve reference file = .ok ⟨f, .typedef d⟩) :
    Leading l ((f, d.name) :: busy) f d.target := by
  intro k hk reference' context d' hr' hn key hkey
  rcases List.mem_cons.1 hk with rfl | hk
  · have hunique := Library.declaration_unique hr' hr rfl hn
    cases hunique
    exact hkey
  · exact h k hk reference' context d' hr' hn key (.behind hr hkey)

/-- What is kept in mind in one library only is not met again. -/
def Spare (l : Library) (busy busy' : List (Path × String)) (file : Path) (t : TypeExpr) : Prop :=
  busy' ⊆ busy ∧ ∀ k ∈ busy, k ∉ busy' → ¬Passes l file t k

namespace Spare

variable {busy busy' : List (Path × String)} {file f : Path} {t u : TypeExpr} {key : Path × String}

private theorem mono (h : Spare l busy busy' file t) (hu : ∀ key, Passes l f u key → Passes l file t key) :
    Spare l busy busy' f u :=
  ⟨h.1, fun k hk hk' hkey => h.2 k hk hk' (hu k hkey)⟩

/-- What is met in both libraries is kept in mind in both. -/
private theorem enter (h : Spare l busy busy' f u) : Spare l (key :: busy) (key :: busy') f u := by
  refine ⟨List.cons_subset_cons _ h.1, fun k hk hk' => ?_⟩
  rw [List.mem_cons, not_or] at hk'
  exact h.2 k ((List.mem_cons.1 hk).resolve_left hk'.1) hk'.2

/-- What is met in the first library only need not be kept in mind in the second one if it is not met again. -/
private theorem skip (h : Spare l busy busy' f u) (hkey : ¬Passes l f u key) : Spare l (key :: busy) busy' f u := by
  refine ⟨fun k hk => List.mem_cons_of_mem _ (h.1 hk), fun k hk hk' => ?_⟩
  rcases List.mem_cons.1 hk with rfl | hk
  · exact hkey
  · exact h.2 k hk hk'

end Spare

private theorem ExpansionAlike.within {R : Path → TypeExpr → TypeExpr → Prop} {e e' : Expansion}
    (h : ExpansionAlike R e e') (w : Wrapping) : ExpansionAlike R (e.within w) (e'.within w) :=
  ⟨congrArg (List.cons w) h.1, h.2⟩

private theorem ExpansionAlike.inField {R : Path → TypeExpr → TypeExpr → Prop} {e e' : Expansion}
    (h : ExpansionAlike R e e') (f : Field) (type : TypeExpr) :
    ExpansionAlike R (e.inField f) (e'.inField { f with type }) := by
  unfold Expansion.inField
  split
  · exact h.within .nonNull
  · exact h

section Reference

variable {busy busy' : List (Path × String)} {file f : Path} {line : Nat} {reference : String}

private theorem expandType_struct_alike (h : Inlines l l') {s : Idl.Struct}
    (hr : l.resolve reference file = .ok ⟨f, .struct s⟩) :
    Agree False (ExpansionAlike (Inlined l)) (expandType l busy file (.named line reference))
      (expandType l' busy' file (.named line reference)) := by
  obtain ⟨d', hr', hd'⟩ := exists_resolve_alike h hr
  cases hd' with
  | struct hs =>
    rw [expandType_of_resolve hr, expandType_of_resolve hr', expandType_struct, expandType_struct]
    exact .ok ⟨rfl, .struct hs⟩

private theorem expandType_enumeration_alike (h : Inlines l l') {e : Idl.Enumeration}
    (hr : l.resolve reference file = .ok ⟨f, .enumeration e⟩) :
    Agree False (ExpansionAlike (Inlined l)) (expandType l busy file (.named line reference))
      (expandType l' busy' file (.named line reference)) := by
  obtain ⟨d', hr', hd'⟩ := exists_resolve_alike h hr
  cases hd'
  rw [expandType_of_resolve hr, expandType_of_resolve hr', expandType_enumeration, expandType_enumeration]
  exact .ok ⟨rfl, .enumeration f e⟩

/-- A typedef that is met again is kept in mind in both libraries, since the reference comes by it. -/
private theorem expandType_cycle_alike (h : Inlines l l') {d : Idl.Typedef}
    (hr : l.resolve reference file = .ok ⟨f, .typedef d⟩) (hb : busy.contains (f, d.name) = true)
    (hspare : Spare l busy busy' file (.named line reference)) :
    Agree False (ExpansionAlike (Inlined l)) (expandType l busy file (.named line reference))
      (expandType l' busy' file (.named line reference)) := by
  obtain ⟨d', hr', hd'⟩ := exists_resolve_alike h hr
  cases hd' with
  | @typedef _ target _ =>
    have hb' : busy'.contains (f, d.name) = true := by
      by_contra hb'
      exact hspare.2 _ (by simpa using hb) (by simpa using hb') (.here hr)
    rw [expandType_of_resolve hr, expandType_cycle hb, expandType_of_resolve hr',
      expandType_cycle (d := { d with target }) hb']
    exact .error _

/-- A typedef that is met for the first time is expanded in both libraries. -/
private theorem expandType_typedef_alike (h : Inlines l l') {d : Idl.Typedef}
    (hr : l.resolve reference file = .ok ⟨f, .typedef d⟩) (hb : busy.contains (f, d.name) = false)
    (hspare : Spare l busy busy' file (.named line reference))
    (hbehind : ∀ {target}, Inlined l f d.target target →
      Spare l ((f, d.name) :: busy) ((f, d.name) :: busy') f d.target →
        Agree False (ExpansionAlike (Inlined l)) (expandType l ((f, d.name) :: busy) f d.target)
          (expandType l' ((f, d.name) :: busy') f target)) :
    Agree False (ExpansionAlike (Inlined l)) (expandType l busy file (.named line reference))
      (expandType l' busy' file (.named line reference)) := by
  obtain ⟨d', hr', hd'⟩ := exists_resolve_alike h hr
  cases hd' with
  | @typedef _ target htarget =>
    have hb' : busy'.contains (f, d.name) = false := by
      rw [List.contains_eq_mem, decide_eq_false_iff_not] at hb ⊢
      exact fun hmem => hb (hspare.1 hmem)
    rw [expandType_of_resolve hr, expandType_typedef hb, expandType_of_resolve hr',
      expandType_typedef (d := { d with target }) hb']
    exact hbehind htarget (hspare.mono fun key => Passes.behind hr).enter

end Reference

/-- Types that have been inlined stand for the same: typedefs that are left out of mind in the second library are not
met again, and those that are being expanded lead to the present type. -/
theorem expandType_inlined (h : Inlines l l') {busy busy' : List (Path × String)} {file : Path} {t t' : TypeExpr}
    (ht : Inlined l file t t') (hlead : Leading l busy file t) (hspare : Spare l busy busy' file t) :
    Agree False (ExpansionAlike (Inlined l)) (expandType l busy file t) (expandType l' busy' file t') := by
  have hscalar : ∀ x, Agree False (ExpansionAlike (Inlined l))
      (.ok (.bare (.scalar x)) : Except ExpansionError Expansion) (.ok (.bare (.scalar x))) :=
    fun x => .ok ⟨rfl, .scalar x⟩
  induction busy, file, t using expandType.induct l generalizing busy' t' with
  | case1 busy file line name x hx =>
    cases ht
    rw [expandType, expandType, hx]
    exact hscalar x
  | case2 busy file line name hx =>
    cases ht
    rw [expandType, expandType, hx]
    exact .error _
  | case3 busy file line element ih =>
    cases ht with
    | list ht =>
      rw [expandType_list, expandType_list]
      exact (ih ht (hlead.mono fun _ => .list) (hspare.mono fun _ => .list)).map fun e e' he => he.within .list
  | case4 | case5 =>
    cases ht
    rw [expandType, expandType]
    exact hscalar _
  | case6 busy file f ih =>
    cases ht with
    | field ht =>
      rw [expandType_field, expandType_field]
      exact (ih ht (hlead.mono fun _ => .field) (hspare.mono fun _ => .field)).map fun e e' he => he.inField f _
  | case7 | case8 | case9 | case10 => cases ht
  | case11 busy file line reference e hr =>
    cases ht with
    | named =>
      rw [expandType_of_unresolved hr, expandType_of_unresolved (resolve_error_alike h hr)]
      exact .error _
    | inline hr' => cases hr.symm.trans hr'
  | case12 busy file line reference r hr x hx =>
    obtain ⟨f, _⟩ := r
    cases hx
    cases ht with
    | named => exact expandType_struct_alike h hr
    | inline hr' => cases hr.symm.trans hr'
  | case13 busy file line reference r hr x hx =>
    obtain ⟨f, _⟩ := r
    cases hx
    cases ht with
    | named => exact expandType_enumeration_alike h hr
    | inline hr' => cases hr.symm.trans hr'
  | case14 busy file line reference r hr d hd hb =>
    obtain ⟨f, _⟩ := r
    cases hd
    cases ht with
    | named => exact expandType_cycle_alike h hr hb hspare
    | inline hr' hacyclic =>
      cases hr.symm.trans hr'
      exact absurd (hlead _ (by simpa using hb) _ _ _ hr rfl _ (.here hr)) hacyclic
  | case15 busy file line reference r hr d hd hb ih =>
    obtain ⟨f, _⟩ := r
    cases hd
    have hb : busy.contains (f, d.name) = false := by simpa using hb
    cases ht with
    | named => exact expandType_typedef_alike h hr hb hspare fun htarget => ih htarget (hlead.enter hr)
    | inline hr' hacyclic ht =>
      cases hr.symm.trans hr'
      rw [expandType_of_resolve hr, expandType_typedef hb]
      exact ih ht (hlead.enter hr) ((hspare.mono fun key => Passes.behind hr).skip hacyclic)
  | case16 busy file line | case17 busy file kind =>
    cases ht
    rw [expandType, expandType]
    exact .error _

end Expand

end ThriftGateway.Graph
