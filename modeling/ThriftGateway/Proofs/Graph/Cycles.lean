import Mathlib.Logic.Relation
import ThriftGateway.Graph.Compiler
import ThriftGateway.Proofs.Graph.Compile
import ThriftGateway.Proofs.Source.Plain

/-!
# Typedefs that come back to themselves

Each request leaves the set of typedefs that a compiler is expanding as it was, and gives what `compileType` gives
(`Compiler.compile_eq`).

`Follows` leads from a type to what it stands for, through elements of lists, fields, references and targets of
typedefs.  A request fails because of a cycle exactly if this comes back to a typedef (`Compiler.cycle_iff`).
-/

namespace ThriftGateway.Graph

open Idl (Declaration TypeExpr)
open Relation (ReflTransGen TransGen)
open Source (FileTree Library Path Reason Resolved)

/-! ### What a request leaves -/

namespace Compiler

variable {direction : Option Direction} {file : Path} {t : TypeExpr}

@[simp] theorem work_session {α : Type} (c : Compiler) (w : Compile α) :
    (c.work w).2.session = (Work.run w c.session).2 := rfl

@[simp] theorem work_expanding {α : Type} (c : Compiler) (w : Compile α) : (c.work w).2.expanding = c.expanding := rfl

/-- A typedef that has entered leaves again. -/
private theorem leave_work_enter {α : Type} {c : Compiler} {key : Path × String} (hk : c.expanding.contains key = false)
    (w : Compile α) : (((c.enter key).work w).1, ((c.enter key).work w).2.leave key) = c.work w := by
  have hleft : (key :: c.expanding).filter (fun k => k ≠ key) = c.expanding := by
    rw [List.filter_cons_of_neg (by simp), List.filter_eq_self]
    intro k hmem
    refine decide_eq_true fun h => ?_
    rw [h, ← List.contains_iff_mem, hk] at hmem
    cases hmem
  unfold work leave enter
  rw [hleft]

/-- What a wrapping of the expansion does to the type. -/
private theorem work_expansion_map (c : Compiler) (direction : Option Direction) (wrap : Expansion → Expansion)
    (around : GraphType → GraphType) (hcore : ∀ e, (wrap e).core = e.core)
    (haround : ∀ e n, wrapped (wrap e).around n = around (wrapped e.around n))
    (x : Except ExpansionError Expansion) :
    c.work (compileExpansion direction (x.map wrap)) =
      ((c.work (compileExpansion direction x)).1.map around, (c.work (compileExpansion direction x)).2) := by
  cases x with
  | error e => rfl
  | ok e =>
    simp only [Except.map, work, run_compileExpansion_ok, hcore]
    cases (Work.run (compileCore direction e.core) c.session).1 with
    | error e => rfl
    | ok n => simp [haround]

/-- A request that begins while some typedefs are being expanded gives what the expansion is compiled to, and leaves
the set of those typedefs as it was. -/
theorem compile_eq (c : Compiler) (direction : Option Direction) (file : Path) (t : TypeExpr) :
    c.compile direction file t =
      c.work (compileExpansion direction (expandType c.session.library c.expanding file t)) := by
  obtain ⟨s, busy⟩ := c
  show compile direction ⟨s, busy⟩ file t =
    work ⟨s, busy⟩ (compileExpansion direction (expandType s.library busy file t))
  induction busy, file, t using expansion_induction s.library with
  | base busy file line name =>
    rw [compile, expandType]
    cases Scalar.ofBase? name <;> rfl
  | list busy file line element ih =>
    have hwithin := work_expansion_map ⟨s, busy⟩ direction (fun e => e.within .list) .list (fun _ => rfl)
      (fun _ _ => rfl) (expandType s.library busy file element)
    rw [compile, expandType_list, ih, hwithin]
  | map busy file line key value => rw [compile, expandType]; rfl
  | set busy file line element => rw [compile, expandType]; rfl
  | field busy file f ih =>
    have hfield := work_expansion_map ⟨s, busy⟩ direction (fun e => e.inField f)
      (if f.requiredness = some .required then .nonNull else id)
      (fun e => by unfold Expansion.inField; split <;> rfl) (fun e n => by unfold Expansion.inField; split <;> rfl)
      (expandType s.library busy file f.type)
    rw [compile, expandType_field, ih, hfield]
    dsimp only
    split
    · rfl
    · rw [Except.map_id]
      rfl
  | struct busy file d => rw [compile, expandType_struct]; rfl
  | enumeration busy file d => rw [compile, expandType_enumeration]; rfl
  | cycle busy file d hb => rw [compile, if_pos hb, expandType_cycle hb]; rfl
  | typedef busy file d hb ih =>
    rw [compile, if_neg (by simpa using hb), expandType_typedef hb]
    dsimp only [enter]
    rw [ih]
    exact leave_work_enter (c := ⟨s, busy⟩) hb _
  | unresolved busy file line reference e hr =>
    rw [expandType_of_unresolved hr, compile]
    split
    · rename_i e' he
      obtain rfl : e = e' := by simpa [hr] using he
      rfl
    · rename_i r hr'
      rw [hr] at hr'
      cases hr'
  | named busy file line reference r hr ih =>
    rw [expandType_of_resolve hr, ← ih, compile]
    split
    · rename_i e he
      rw [hr] at he
      cases he
    · rename_i r' hr'
      obtain rfl : r = r' := by simpa [hr] using hr'
      split <;> rename_i hd <;> rw [hd, compile]
      rfl
  | void busy file line => rw [compile, expandType]; rfl
  | other busy file kind => rw [compile, expandType]; rfl

end Compiler

/-! ### Following -/

/-- From a type in a file to what it stands for there or elsewhere: the element of a list, the type of a field, the
declaration that a reference means, or the target of a typedef.  Nothing follows a scalar, a map, a set, a struct or an
enumeration, nor a reference that means nothing. -/
inductive Follows (l : Library) : Path × TypeExpr → Path × TypeExpr → Prop
  | element {file line element} : Follows l (file, .list line element) (file, element)
  | field {file f} : Follows l (file, .field f) (file, f.type)
  | meaning {file line reference r} (hr : l.resolve reference file = .ok r) :
      Follows l (file, .named line reference) (r.file, .declared r.declaration)
  | target {file d} : Follows l (file, .declared (.typedef d)) (file, d.target)

/-- Following leads to a typedef, and from there to a typedef in the same file with the same name. -/
def ComesBack (l : Library) (x : Path × TypeExpr) : Prop :=
  ∃ file d d', ReflTransGen (Follows l) x (file, .declared (.typedef d)) ∧
    TransGen (Follows l) (file, .declared (.typedef d)) (file, .declared (.typedef d')) ∧ d'.name = d.name

/-- Following leads to a typedef with one of these files and names. -/
def LeadsInto (l : Library) (busy : List (Path × String)) (x : Path × TypeExpr) : Prop :=
  ∃ file d, ReflTransGen (Follows l) x (file, .declared (.typedef d)) ∧ (file, d.name) ∈ busy

section

variable {l : Library} {busy : List (Path × String)} {x y z : Path × TypeExpr} {file : Path} {d : Idl.Typedef}

private theorem Follows.det (hy : Follows l x y) (hz : Follows l x z) : y = z := by
  cases hy with
  | element => cases hz; rfl
  | field => cases hz; rfl
  | meaning hr =>
    cases hz with
    | meaning hr' =>
      rw [hr] at hr'
      cases hr'
      rfl
  | target => cases hz; rfl

/-- What is not a typedef leads to a typedef through what follows it. -/
private theorem Follows.leads_iff (h : Follows l x y) (hx : ∀ file d, x ≠ (file, .declared (.typedef d))) :
    ReflTransGen (Follows l) x (file, .declared (.typedef d)) ↔
      ReflTransGen (Follows l) y (file, .declared (.typedef d)) := by
  refine ⟨fun hpath => ?_, fun hpath => .head h hpath⟩
  obtain heq | ⟨y', hy', hpath⟩ := hpath.cases_head
  · exact absurd heq (hx _ _)
  · rwa [h.det hy']

/-- If nothing follows what is not a typedef, it leads to no typedef. -/
private theorem not_leads (h : ∀ y, ¬ Follows l x y) (hx : ∀ file d, x ≠ (file, .declared (.typedef d))) :
    ¬ ReflTransGen (Follows l) x (file, .declared (.typedef d)) := by
  intro hpath
  obtain heq | ⟨y, hy, -⟩ := hpath.cases_head
  · exact hx _ _ heq
  · exact h y hy

/-- What is not a typedef leads into what is being expanded, or comes back, exactly if what follows it does. -/
private theorem Follows.comesBack_iff (h : Follows l x y) (hx : ∀ file d, x ≠ (file, .declared (.typedef d))) :
    LeadsInto l busy x ∨ ComesBack l x ↔ LeadsInto l busy y ∨ ComesBack l y := by
  simp only [LeadsInto, ComesBack, h.leads_iff hx]

/-- If nothing follows what is not a typedef, it leads into nothing and does not come back. -/
private theorem not_comesBack_of_end (h : ∀ y, ¬ Follows l x y) (hx : ∀ file d, x ≠ (file, .declared (.typedef d))) :
    ¬ (LeadsInto l busy x ∨ ComesBack l x) := by
  rintro (⟨f, d, hpath, -⟩ | ⟨f, d, -, hpath, -⟩)
  · exact not_leads h hx hpath
  · exact not_leads h hx hpath

/-- While a typedef is being expanded, the path from its target into what is being expanded goes back to that typedef or
into what was being expanded before. -/
private theorem comesBack_typedef_iff (hb : (file, d.name) ∉ busy) :
    LeadsInto l busy (file, .declared (.typedef d)) ∨ ComesBack l (file, .declared (.typedef d)) ↔
      LeadsInto l ((file, d.name) :: busy) (file, d.target) ∨ ComesBack l (file, d.target) := by
  constructor
  · rintro (⟨f, e, hpath, he⟩ | ⟨f, e, e', hpath, hback, hname⟩)
    · obtain heq | ⟨y, hy, hpath⟩ := hpath.cases_head
      · cases heq
        exact absurd he hb
      · cases hy
        exact .inl ⟨f, e, hpath, List.mem_cons_of_mem _ he⟩
    · obtain heq | ⟨y, hy, hpath⟩ := hpath.cases_head
      · cases heq
        obtain ⟨y, hy, hback⟩ := TransGen.head'_iff.1 hback
        cases hy
        exact .inl ⟨file, e', hback, hname ▸ List.mem_cons_self⟩
      · cases hy
        exact .inr ⟨f, e, e', hpath, hback, hname⟩
  · rintro (⟨f, e, hpath, he⟩ | ⟨f, e, e', hpath, hback, hname⟩)
    · obtain heq | he := List.mem_cons.1 he
      · obtain ⟨rfl, hname⟩ := Prod.mk.inj heq
        exact .inr ⟨f, d, e, .refl, TransGen.head' .target hpath, hname⟩
      · exact .inl ⟨f, e, .head .target hpath, he⟩
    · exact .inr ⟨f, e, e', .head .target hpath, hback, hname⟩

/-! ### Cycles -/

/-- References never mean a typedef that leads back to itself: only expansion finds out. -/
private theorem resolve_ne_cycle {reference name : String} {context context' : Path} :
    l.resolve reference context ≠ .error (.unresolved name context' .typedefCycle) := by
  have hin : ∀ name' file, l.resolveIn reference name' file context ≠
      .error (.unresolved name context' .typedefCycle) := by
    intro name' file h
    unfold Library.resolveIn at h
    split at h
    · cases h
    · split at h <;> cases h
  intro h
  unfold Library.resolve at h
  split at h
  · exact hin _ _ h
  · split at h
    · rename_i hstem
      cases h
      unfold Library.resolveStem at hstem
      split at hstem
      · cases hstem
      · split at hstem
        · cases hstem
        · dsimp only at hstem
          split at hstem <;> cases hstem
        · cases hstem
    · exact hin _ _ h
  · cases h

/-- A cycle is found while a type is expanded. -/
def FindsCycle {α : Type} (r : Except ExpansionError α) : Prop :=
  ∃ name context, r = .error (.reference (.unresolved name context .typedefCycle))

private theorem findsCycle_map {α β : Type} (f : α → β) (r : Except ExpansionError α) :
    FindsCycle (r.map f) ↔ FindsCycle r := by
  cases r <;> simp [FindsCycle, Except.map]

/-- Expansion finds a cycle exactly if following leads into what is being expanded, or comes back. -/
private theorem findsCycle_iff (l : Library) (busy : List (Path × String)) (file : Path) (t : TypeExpr) :
    FindsCycle (expandType l busy file t) ↔ LeadsInto l busy (file, t) ∨ ComesBack l (file, t) := by
  induction busy, file, t using expansion_induction l with
  | base busy file line name =>
    refine iff_of_false ?_ (not_comesBack_of_end (fun y hy => by cases hy) (by simp))
    rw [expandType]
    split <;> simp [FindsCycle]
  | list busy file line element ih =>
    rw [expandType_list, findsCycle_map]
    exact ih.trans (Follows.comesBack_iff .element (by simp)).symm
  | map busy file line key value =>
    exact iff_of_false (by rw [expandType]; simp [FindsCycle])
      (not_comesBack_of_end (fun y hy => by cases hy) (by simp))
  | set busy file line element =>
    exact iff_of_false (by rw [expandType]; simp [FindsCycle])
      (not_comesBack_of_end (fun y hy => by cases hy) (by simp))
  | field busy file f ih =>
    rw [expandType_field, findsCycle_map]
    exact ih.trans (Follows.comesBack_iff .field (by simp)).symm
  | struct busy file s =>
    exact iff_of_false (by rw [expandType_struct]; simp [FindsCycle])
      (not_comesBack_of_end (fun y hy => by cases hy) (by simp))
  | enumeration busy file e =>
    exact iff_of_false (by rw [expandType_enumeration]; simp [FindsCycle])
      (not_comesBack_of_end (fun y hy => by cases hy) (by simp))
  | cycle busy file d hb =>
    rw [expandType_cycle hb]
    exact iff_of_true ⟨_, _, rfl⟩ (.inl ⟨file, d, .refl, List.contains_iff_mem.1 hb⟩)
  | typedef busy file d hb ih =>
    have hmem : (file, d.name) ∉ busy := by rwa [← List.contains_iff_mem, Bool.not_eq_true]
    rw [expandType_typedef hb]
    exact ih.trans (comesBack_typedef_iff hmem).symm
  | unresolved busy file line reference e hr =>
    refine iff_of_false ?_ (not_comesBack_of_end (fun y hy => ?_) (by simp))
    · rw [expandType_of_unresolved hr]
      rintro ⟨name, context, h⟩
      cases h
      exact resolve_ne_cycle hr
    · cases hy with
      | meaning hr' =>
        rw [hr] at hr'
        cases hr'
  | named busy file line reference r hr ih =>
    rw [expandType_of_resolve hr]
    exact ih.trans (Follows.comesBack_iff (.meaning hr) (by simp)).symm
  | void busy file line =>
    exact iff_of_false (by rw [expandType]; simp [FindsCycle])
      (not_comesBack_of_end (fun y hy => by cases hy) (by simp))
  | other busy file kind =>
    exact iff_of_false (by rw [expandType]; simp [FindsCycle])
      (not_comesBack_of_end (fun y hy => by cases hy) (by simp))

/-! ### In documents -/

/-- What follows something that stands in the documents is a plain type, or a declaration that a reference means. -/
private theorem Follows.plain_or_meant (hl : l.IsPlain) (h : Follows l x y) (hx : l.States x.1 x.2) :
    y.2.IsPlain ∨ ∃ reference context r, l.resolve reference context = .ok r ∧
      y = (r.file, .declared r.declaration) := by
  cases h with
  | element =>
    cases hx with
    | plain h => cases h with | list h => exact .inl h
  | field =>
    cases hx with
    | plain h => cases h
    | field h => exact .inl h
  | meaning hr => exact .inr ⟨_, _, _, hr, rfl⟩
  | target =>
    cases hx with
    | plain h => cases h
    | declared hd he => exact .inl ((hl _ (Library.mem_of_document? hd)).declaration he)

private theorem Follows.states (hl : l.IsPlain) (h : Follows l x y) (hx : l.States x.1 x.2) : l.States y.1 y.2 := by
  obtain hplain | ⟨_, _, r, hr, rfl⟩ := h.plain_or_meant hl hx
  · exact .plain hplain
  · exact .of_resolve hr

private theorem states_of_leads (hl : l.IsPlain) (h : ReflTransGen (Follows l) x y) (hx : l.States x.1 x.2) :
    l.States y.1 y.2 := by
  induction h with
  | refl => exact hx
  | tail _ hstep ih => exact hstep.states hl ih

/-- A declaration that follows something in the documents is the only one of its name in its file. -/
private theorem Follows.eq_of_name (hl : l.IsPlain) {e e' : Declaration} (h : Follows l x (file, .declared e))
    (hx : l.States x.1 x.2) (he' : l.States file (.declared e')) (hname : e'.name = e.name) : e' = e := by
  obtain hplain | ⟨_, _, r, hr, hy⟩ := h.plain_or_meant hl hx
  · cases hplain
  · cases hy
    cases he' with
    | plain h => cases h
    | @declared d _ hd hmem =>
      obtain ⟨d', hd', hnames⟩ := Library.document_of_resolve hr
      obtain rfl : d = d' := Option.some.inj (hd.symm.trans hd')
      have hfound : e' ∈ d.declarationsNamed r.declaration.name :=
        List.mem_filter.2 ⟨hmem, decide_eq_true hname⟩
      rw [hnames] at hfound
      exact List.mem_singleton.1 hfound

/-- In the documents, following comes back to the very typedef that it has met. -/
private theorem comesBack_iff_of_states (hl : l.IsPlain) (hx : l.States x.1 x.2) :
    ComesBack l x ↔ ∃ file d, ReflTransGen (Follows l) x (file, .declared (.typedef d)) ∧
      TransGen (Follows l) (file, .declared (.typedef d)) (file, .declared (.typedef d)) := by
  constructor
  · rintro ⟨file, d, d', hpath, hback, hname⟩
    have hd := states_of_leads hl hpath hx
    obtain ⟨y, hy, hlast⟩ := TransGen.tail'_iff.1 hback
    have heq : Declaration.typedef d = .typedef d' :=
      hlast.eq_of_name hl (states_of_leads hl hy hd) hd hname.symm
    cases heq
    exact ⟨file, d, hpath, hback⟩
  · rintro ⟨file, d, hpath, hback⟩
    exact ⟨file, d, d, hpath, hback, rfl⟩

/-- All that a circle leads to is on the circle. -/
private theorem leads_of_circle (hx : TransGen (Follows l) x x) (hy : ReflTransGen (Follows l) x y) :
    ReflTransGen (Follows l) y x := by
  induction hy with
  | refl => exact .refl
  | tail _ hstep ih =>
    obtain rfl | ⟨z, hz, hrest⟩ := ih.cases_head
    · obtain ⟨z, hz, hrest⟩ := TransGen.head'_iff.1 hx
      rwa [hstep.det hz]
    · rwa [hstep.det hz]

/-- In the documents, what leads to a struct does not come back. -/
private theorem not_comesBack_of_struct (hl : l.IsPlain) (hx : l.States x.1 x.2) {s : Idl.Struct}
    (h : ReflTransGen (Follows l) x (file, .declared (.struct s))) : ¬ ComesBack l x := by
  have hend : ∀ y, ¬ Follows l (file, .declared (.struct s)) y := nofun
  rw [comesBack_iff_of_states hl hx]
  rintro ⟨f, d, hpath, hback⟩
  have hother : ∀ f d, (file, TypeExpr.declared (.struct s)) ≠ (f, .declared (.typedef d)) := by simp
  -- the struct lies behind the typedef, as nothing lies behind the struct, so it would be on the circle
  have hunique : Relator.RightUnique (Follows l) := fun _ _ _ hy hz => hy.det hz
  obtain hlead | hlead := ReflTransGen.total_of_right_unique hunique h hpath
  · exact not_leads hend hother hlead
  · exact not_leads hend hother (leads_of_circle hback hlead)

end

/-! ### Requests of a compiler -/

/-- Of the reasons why references mean nothing, the one that tells of a cycle has its own words. -/
private theorem text_eq_cycle_iff {reason : Reason} : reason.text = "typedef cycle" ↔ reason = .typedefCycle := by
  -- the others begin with another letter, or end with one
  have hhead : ∀ {s : String}, s = "typedef cycle" → s.toList.head? = some 't' ∧ s.toList.getLast? = some 'e' := by
    rintro s rfl
    decide
  refine ⟨fun h => ?_, fun h => h ▸ rfl⟩
  cases reason with
  | typedefCycle => rfl
  | noInclude stem =>
    have h : "no include named '" ++ stem ++ "'" = "typedef cycle" := h
    simpa using (hhead h).1
  | ambiguousInclude stem =>
    have h : "ambiguous include name '" ++ stem ++ "'" = "typedef cycle" := h
    simpa using (hhead h).1
  | notLoaded fileName =>
    have h : fileName ++ " is not loaded" = "typedef cycle" := h
    simpa using (hhead h).2
  | noDeclaration name fileName =>
    have h : "no declaration named '" ++ name ++ "' in " ++ fileName = "typedef cycle" := h
    simpa using (hhead h).1
  | declaredTwice name fileName =>
    have h : "'" ++ name ++ "' is declared more than once in " ++ fileName = "typedef cycle" := h
    simpa using (hhead h).1

/-- What is raised for a typedef that leads back to itself. -/
def IsCycleFailure (r : Except CompileError GraphType) : Prop :=
  ∃ name context reason, r = .error (.expansion (.reference (.unresolved name context reason))) ∧
    reason.text = "typedef cycle"

/-- Once a type has been expanded, nothing fails for its expansion. -/
private theorem compileCore_throws (direction : Option Direction) (core : Core) :
    Throws (compileCore direction core) fun e => ∀ x, e ≠ .expansion x := by
  have hname : ∀ r, Throws (giveName r) fun e => ∀ x, e ≠ .expansion x :=
    fun r => .giveName (by simp) (by simp)
  cases core with
  | scalar s => exact .pure _
  | struct file s =>
    refine (Throws.nodeFor ?_ (by simp)).bind fun _ => .pure _
    unfold makeStruct
    split <;> exact (hname _).bind fun _ => .pure _
  | enumeration file e =>
    refine .read fun s => ?_
    split
    · exact .pure _
    · refine (Throws.nodeFor ?_ (by simp)).bind fun _ => .pure _
      exact (Throws.ofExcept (by simp)).bind fun _ => (hname _).bind fun _ => .pure _

namespace Compiler

variable {direction : Option Direction} {file : Path} {t : TypeExpr}

/-- Compilers as requests leave them, whatever they ask for and however they end; between requests, the session may
change in any way. -/
inductive IsUsed : Compiler → Prop
  | new (s : Session) : IsUsed (new s)
  | request {c} (hc : IsUsed c) (direction file t) : IsUsed (c.compile direction file t).2
  | between {c} (hc : IsUsed c) (s : Session) : IsUsed { c with session := s }

/-- The set of typedefs that are being expanded is what it was before the request. -/
private theorem expanding_compile (c : Compiler) (direction : Option Direction) (file : Path) (t : TypeExpr) :
    (c.compile direction file t).2.expanding = c.expanding := by
  rw [compile_eq, work_expanding]

/-- Between requests, nothing is being expanded. -/
private theorem IsUsed.expanding_eq_nil {c : Compiler} (hc : c.IsUsed) : c.expanding = [] := by
  induction hc with
  | new s => rfl
  | request _ direction file t ih => rw [expanding_compile, ih]
  | between _ s ih => exact ih

/-- A request fails for a cycle exactly if the expansion finds one: nothing that comes after it fails so. -/
private theorem isCycleFailure_compile_iff (c : Compiler) (direction : Option Direction) (file : Path) (t : TypeExpr) :
    IsCycleFailure (c.compile direction file t).1 ↔
      FindsCycle (expandType c.session.library c.expanding file t) := by
  rw [compile_eq]
  show IsCycleFailure (Work.run (compileExpansion _ _) _).1 ↔ _
  cases expandType c.session.library c.expanding file t with
  | error e => simp [run_compileExpansion_error, IsCycleFailure, FindsCycle, text_eq_cycle_iff]
  | ok e =>
    rw [run_compileExpansion_ok]
    refine iff_of_false ?_ (by simp [FindsCycle])
    rintro ⟨name, context, reason, h, -⟩
    cases hr : (Work.run (compileCore direction e.core) c.session).1 with
    | error e' =>
      rw [hr] at h
      cases h
      exact compileCore_throws _ _ _ _ _ (Prod.ext hr rfl) _ rfl
    | ok n =>
      rw [hr] at h
      cases h

/-- A request of a compiler fails for a cycle exactly if following the type that is asked for comes back: to a typedef
in the same file with the same name, and in documents that are made of plain types to the very same typedef; there,
nothing that leads to a struct fails so.  The set of typedefs being expanded is empty before and after, and the request
gives what compiling the type gives. -/
theorem isCycleFailure_iff_comesBack {c : Compiler} (hc : c.IsUsed) (direction : Option Direction) (file : Path)
    (t : TypeExpr) :
    (IsCycleFailure (c.compile direction file t).1 ↔ ComesBack c.session.library (file, t)) ∧
    (c.session.library.IsPlain → c.session.library.States file t →
      (ComesBack c.session.library (file, t) ↔ ∃ f d,
        ReflTransGen (Follows c.session.library) (file, t) (f, .declared (.typedef d)) ∧
        TransGen (Follows c.session.library) (f, .declared (.typedef d)) (f, .declared (.typedef d))) ∧
      ∀ f s, ReflTransGen (Follows c.session.library) (file, t) (f, .declared (.struct s)) →
        ¬ IsCycleFailure (c.compile direction file t).1) ∧
    (c.compile direction file t).2.expanding = c.expanding ∧ c.expanding = [] ∧
    ((c.compile direction file t).1, (c.compile direction file t).2.session) =
      Work.run (compileType direction file t) c.session := by
  have hcycle : IsCycleFailure (c.compile direction file t).1 ↔ ComesBack c.session.library (file, t) := by
    rw [isCycleFailure_compile_iff, findsCycle_iff, hc.expanding_eq_nil]
    exact or_iff_right fun ⟨_, _, _, h⟩ => List.not_mem_nil h
  refine ⟨hcycle, fun hl ht => ⟨comesBack_iff_of_states hl ht, fun f s hs => ?_⟩, expanding_compile c direction file t,
    hc.expanding_eq_nil, ?_⟩
  · rw [hcycle]
    exact not_comesBack_of_struct hl ht hs
  · rw [compile_eq, hc.expanding_eq_nil]
    rfl

/-- Two typedefs that stand for each other through a list, and a struct that holds itself by another name. -/
def entwined : FileTree where
  working := ⟨["idl"]⟩
  files := [(⟨["idl", "a.thrift"]⟩, Text.encode "typedef list<A> B typedef B A struct S { T t } typedef S T")]

/-- Whether a document declares these, and includes nothing. -/
private def declaresEntwined (d : Idl.Document) : Bool :=
  d.includes.isEmpty &&
    match d.declarationsNamed "A", d.declarationsNamed "B", d.declarationsNamed "S", d.declarationsNamed "T" with
    | [.typedef ⟨_, "A", .named _ "B", _⟩], [.typedef ⟨_, "B", .list _ (.named _ "A"), _⟩],
      [.struct ⟨_, _, "S", [⟨_, _, _, _, .named _ "T", _, _⟩], _⟩], [.typedef ⟨_, "T", .named _ "S", _⟩] => true
    | _, _, _, _ => false

/-- A request for one of the two typedefs fails for a cycle, one for the name of the struct does not, and nothing is
being expanded afterwards. -/
theorem isCycleFailure_iff_comesBack_entwined :
    ∃ (c : Compiler) (file : Path), c.IsUsed ∧ c.session.library.IsPlain ∧
      c.session.library.States file (.named 1 "A") ∧ c.session.library.States file (.named 1 "T") ∧
      IsCycleFailure (c.compile none file (.named 1 "A")).1 ∧
      (c.compile none file (.named 1 "A")).2.expanding = [] ∧
      ¬ IsCycleFailure (c.compile none file (.named 1 "T")).1 := by
  obtain ⟨d, hd, hview⟩ := Source.exists_document_of_any (t := entwined) (p := ⟨["idl", "a.thrift"]⟩) declaresEntwined
    (by decide +kernel)
  rw [declaresEntwined, Bool.and_eq_true, List.isEmpty_iff] at hview
  obtain ⟨hincludes, hview⟩ := hview
  split at hview
  · rename_i hA hB hS hT
    let c := new ((Session.fresh false declaredName).load entwined [⟨["idl", "a.thrift"]⟩]).1
    have hlibrary : c.session.library = ⟨[(⟨["idl", "a.thrift"]⟩, d)]⟩ := by
      show (Source.loadPending entwined .empty [⟨["idl", "a.thrift"]⟩]).library = _
      rw [Source.loadPending_alone hd hincludes]
    have hdocument : c.session.library.document? ⟨["idl", "a.thrift"]⟩ = some d := by
      rw [hlibrary]
      rfl
    have hplain : c.session.library.IsPlain := Source.isPlain_loadPending Source.empty_isPlain
    have hA := Library.resolve_of_plain (by decide) hdocument hA
    have hB := Library.resolve_of_plain (by decide) hdocument hB
    have hS := Library.resolve_of_plain (by decide) hdocument hS
    have hT := Library.resolve_of_plain (by decide) hdocument hT
    have hcircle : ComesBack c.session.library (⟨["idl", "a.thrift"]⟩, .named 1 "A") :=
      ⟨_, _, _, .single (.meaning hA), .head .target (.head (.meaning hB) (.head .target (.head .element
        (.single (.meaning hA))))), rfl⟩
    have hstruct : ∃ s, ReflTransGen (Follows c.session.library) (⟨["idl", "a.thrift"]⟩, .named 1 "T")
        (⟨["idl", "a.thrift"]⟩, .declared (.struct s)) :=
      ⟨_, .head (.meaning hT) (.head .target (.single (.meaning hS)))⟩
    obtain ⟨s, hs⟩ := hstruct
    have hused : c.IsUsed := .new _
    obtain ⟨hA, -, hleft, hnone, -⟩ := isCycleFailure_iff_comesBack hused none ⟨["idl", "a.thrift"]⟩ (.named 1 "A")
    obtain ⟨-, hT, -⟩ := isCycleFailure_iff_comesBack hused none ⟨["idl", "a.thrift"]⟩ (.named 1 "T")
    exact ⟨c, ⟨["idl", "a.thrift"]⟩, hused, hplain, .plain .named, .plain .named, hA.2 hcircle, hleft.trans hnone,
      (hT hplain (.plain .named)).2 _ s hs⟩
  · cases hview

end Compiler

end ThriftGateway.Graph
