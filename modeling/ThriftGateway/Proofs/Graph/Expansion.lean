import ThriftGateway.Graph.Expansion
import ThriftGateway.Proofs.Source.Reference

/-!
# Where type expressions end

`Ends` says by rules at which struct or enumeration a type expression ends.  What it stands for then has that
declaration as its core (`core_of_ends`), and in a library no two declarations that types end at share a file and a
name (`Ends.unique`).  Neither changes when documents are added (`Ends.of_extends`, `expandType_of_extends`).
-/

namespace ThriftGateway.Graph

open Idl (Declaration TypeExpr)
open Source (Library Path ReferenceError Resolved)

variable {l l' : Library} {busy : List (Path × String)} {file : Path} {t : TypeExpr}

/-! ### Expansion -/

/-- A type of the language that is a scalar stands for it. -/
theorem expandType_base {line : Nat} {name : String} {x : Scalar} (h : Scalar.ofBase? name = some x) :
    expandType l busy file (.base line name) = .ok (.bare (.scalar x)) := by
  rw [expandType, h]

theorem expandType_list {line : Nat} {element : TypeExpr} :
    expandType l busy file (.list line element) = (expandType l busy file element).map (·.within .list) := by
  rw [expandType]

theorem expandType_field {f : Idl.Field} :
    expandType l busy file (.field f) = (expandType l busy file f.type).map (·.inField f) := by
  rw [expandType]

theorem expandType_struct {s : Idl.Struct} :
    expandType l busy file (.declared (.struct s)) = .ok (.bare (.struct file s)) := by
  rw [expandType]

theorem expandType_enumeration {e : Idl.Enumeration} :
    expandType l busy file (.declared (.enumeration e)) = .ok (.bare (.enumeration file e)) := by
  rw [expandType]

/-- A typedef stands for what its target stands for while it is being expanded. -/
theorem expandType_typedef {d : Idl.Typedef} (h : busy.contains (file, d.name) = false) :
    expandType l busy file (.declared (.typedef d)) = expandType l ((file, d.name) :: busy) file d.target := by
  rw [expandType, if_neg (by simpa using h)]

theorem expandType_cycle {d : Idl.Typedef} (h : busy.contains (file, d.name) = true) :
    expandType l busy file (.declared (.typedef d)) =
      .error (.reference (.unresolved d.name file .typedefCycle)) := by
  rw [expandType, if_pos h]

/-- A reference stands for what the declaration that it means stands for. -/
theorem expandType_of_resolve {line : Nat} {reference : String} {r : Resolved} (h : l.resolve reference file = .ok r) :
    expandType l busy file (.named line reference) = expandType l busy r.file (.declared r.declaration) := by
  obtain ⟨f, e⟩ := r
  rw [expandType]
  split
  · rename_i e' he
    rw [h] at he
    cases he
  · rename_i r hr
    rw [h] at hr
    cases hr
    cases e <;> simp [expandType]

theorem expandType_of_unresolved {line : Nat} {reference : String} {e : ReferenceError}
    (h : l.resolve reference file = .error e) :
    expandType l busy file (.named line reference) = .error (.reference e) := by
  rw [expandType]
  split
  · rename_i e' he
    rw [h] at he
    cases he
    rfl
  · rename_i r hr
    rw [h] at hr
    cases hr

/-- What is shown along the expansion of a type expression holds of every one: the recursion goes into elements,
fields, targets of typedefs that are not being expanded, and declarations that references mean. -/
theorem expansion_induction (l : Library) {motive : List (Path × String) → Path → TypeExpr → Prop}
    (base : ∀ busy file line name, motive busy file (.base line name))
    (list : ∀ busy file line element, motive busy file element → motive busy file (.list line element))
    (map : ∀ busy file line key value, motive busy file (.map line key value))
    (set : ∀ busy file line element, motive busy file (.set line element))
    (field : ∀ busy file f, motive busy file f.type → motive busy file (.field f))
    (struct : ∀ busy file s, motive busy file (.declared (.struct s)))
    (enumeration : ∀ busy file e, motive busy file (.declared (.enumeration e)))
    (cycle : ∀ busy file (d : Idl.Typedef), busy.contains (file, d.name) = true →
      motive busy file (.declared (.typedef d)))
    (typedef : ∀ busy file (d : Idl.Typedef), busy.contains (file, d.name) = false →
      motive ((file, d.name) :: busy) file d.target → motive busy file (.declared (.typedef d)))
    (unresolved : ∀ busy file line reference e, l.resolve reference file = .error e →
      motive busy file (.named line reference))
    (named : ∀ busy file line reference r, l.resolve reference file = .ok r →
      motive busy r.file (.declared r.declaration) → motive busy file (.named line reference))
    (void : ∀ busy file line, motive busy file (.void line))
    (other : ∀ busy file kind, motive busy file (.other kind)) :
    ∀ busy file t, motive busy file t := by
  intro busy file t
  induction busy, file, t using expandType.induct l with
  | case1 busy file line name => exact base busy file line name
  | case2 busy file line name => exact base busy file line name
  | case3 busy file line element ih => exact list busy file line element ih
  | case4 busy file line key value => exact map busy file line key value
  | case5 busy file line element => exact set busy file line element
  | case6 busy file f ih => exact field busy file f ih
  | case7 busy file s => exact struct busy file s
  | case8 busy file e => exact enumeration busy file e
  | case9 busy file d h => exact cycle busy file d h
  | case10 busy file d h ih => exact typedef busy file d (by simpa using h) ih
  | case11 busy file line reference e h => exact unresolved busy file line reference e h
  | case12 busy file line reference r h s hs =>
    exact named busy file line reference r h (by rw [hs]; exact struct busy r.file s)
  | case13 busy file line reference r h e he =>
    exact named busy file line reference r h (by rw [he]; exact enumeration busy r.file e)
  | case14 busy file line reference r h d hd hb =>
    exact named busy file line reference r h (by rw [hd]; exact cycle busy r.file d hb)
  | case15 busy file line reference r h d hd hb ih =>
    exact named busy file line reference r h (by rw [hd]; exact typedef busy r.file d (by simpa using hb) ih)
  | case16 busy file line => exact void busy file line
  | case17 busy file kind => exact other busy file kind

theorem map_eq_ok {ε α β : Type} {f : α → β} {x : Except ε α} {b : β} :
    x.map f = .ok b ↔ ∃ a, x = .ok a ∧ f a = b := by
  cases x <;> simp [Except.map]

/-- A type expression stands for the same in a library that covers the other one. -/
theorem expandType_of_covers (h : l.Covers l') {e : Expansion} (he : expandType l busy file t = .ok e) :
    expandType l' busy file t = .ok e := by
  induction busy, file, t using expansion_induction l generalizing e with
  | base busy file line name => rw [expandType] at he ⊢; exact he
  | list busy file line element ih =>
    rw [expandType_list, map_eq_ok] at he ⊢
    obtain ⟨a, ha, hw⟩ := he
    exact ⟨a, ih ha, hw⟩
  | map busy file line key value => rw [expandType] at he ⊢; exact he
  | set busy file line element => rw [expandType] at he ⊢; exact he
  | field busy file f ih =>
    rw [expandType_field, map_eq_ok] at he ⊢
    obtain ⟨a, ha, hw⟩ := he
    exact ⟨a, ih ha, hw⟩
  | struct busy file s => rw [expandType_struct] at he ⊢; exact he
  | enumeration busy file e => rw [expandType_enumeration] at he ⊢; exact he
  | cycle busy file d hb =>
    rw [expandType_cycle hb] at he
    cases he
  | typedef busy file d hb ih =>
    rw [expandType_typedef hb] at he ⊢
    exact ih he
  | unresolved busy file line reference e hr =>
    rw [expandType_of_unresolved hr] at he
    cases he
  | named busy file line reference r hr ih =>
    rw [expandType_of_resolve hr] at he
    rw [expandType_of_resolve (Library.resolve_of_covers h hr)]
    exact ih he
  | void busy file line => rw [expandType] at he; cases he
  | other busy file kind => rw [expandType] at he; cases he

/-- What a type expression stands for stays when documents are added. -/
theorem expandType_of_extends (h : l.Extends l') {e : Expansion} (he : expandType l busy file t = .ok e) :
    expandType l' busy file t = .ok e :=
  expandType_of_covers h.covers he

/-! ### Ends -/

/-- A struct or an enumeration that a reference means, as the core of what the reference stands for. -/
def coreOf (r : Resolved) : Option Core :=
  match r.declaration with
  | .struct s => some (.struct r.file s)
  | .enumeration e => some (.enumeration r.file e)
  | .typedef _ => none

/-- The declaration that a type expression ends at: a struct or an enumeration, through lists, fields and typedefs. -/
inductive Ends (l : Library) : Path → TypeExpr → Resolved → Prop
  | named {file line reference r core} (hr : l.resolve reference file = .ok r) (hc : coreOf r = some core) :
      Ends l file (.named line reference) r
  | typedef {file line reference d r} {f : Path} (hd : l.resolve reference file = .ok ⟨f, .typedef d⟩)
      (hr : Ends l f d.target r) : Ends l file (.named line reference) r
  | list {file line element r} (hr : Ends l file element r) : Ends l file (.list line element) r
  | field {file f r} (hr : Ends l file f.type r) : Ends l file (.field f) r

theorem Ends.of_extends (h : l.Extends l') {r : Resolved} (hr : Ends l file t r) : Ends l' file t r := by
  induction hr with
  | named hr hc => exact .named (Library.resolve_of_extends h hr) hc
  | typedef hd _ ih => exact .typedef (Library.resolve_of_extends h hd) ih
  | list _ ih => exact .list ih
  | field _ ih => exact .field ih

/-- No type expression ends at a typedef. -/
theorem Ends.exists_core {r : Resolved} (hr : Ends l file t r) : ∃ core, coreOf r = some core := by
  induction hr with
  | named _ hc => exact ⟨_, hc⟩
  | typedef _ _ ih => exact ih
  | list _ ih => exact ih
  | field _ ih => exact ih

/-- A declaration that a type expression ends at is meant by a reference. -/
private theorem Ends.exists_reference {r : Resolved} (hr : Ends l file t r) :
    ∃ reference context, l.resolve reference context = .ok r := by
  induction hr with
  | named hr _ => exact ⟨_, _, hr⟩
  | typedef _ _ ih => exact ih
  | list _ ih => exact ih
  | field _ ih => exact ih

/-- A file and a name have one declaration that type expressions end at. -/
theorem Ends.unique {file' : Path} {t' : TypeExpr} {r r' : Resolved} (hr : Ends l file t r) (hr' : Ends l file' t' r')
    (hf : r.file = r'.file) (hn : r.declaration.name = r'.declaration.name) : r = r' := by
  obtain ⟨_, _, h⟩ := hr.exists_reference
  obtain ⟨_, _, h'⟩ := hr'.exists_reference
  exact Library.declaration_unique h h' hf hn

/-- If a type expression that ends at a declaration stands for something, the declaration is its core. -/
theorem core_of_ends {r : Resolved} (hr : Ends l file t r) {e : Expansion} (he : expandType l busy file t = .ok e) :
    coreOf r = some e.core := by
  induction hr generalizing busy e with
  | @named file line reference r core hr hc =>
    rw [expandType_of_resolve hr] at he
    obtain ⟨f, d⟩ := r
    cases d with
    | struct s =>
      rw [expandType_struct] at he
      cases he
      rfl
    | enumeration d =>
      rw [expandType_enumeration] at he
      cases he
      rfl
    | typedef d => cases hc
  | @typedef file line reference d r f hd _ ih =>
    rw [expandType_of_resolve hd] at he
    by_cases hb : busy.contains (f, d.name) = true
    · rw [expandType_cycle hb] at he
      cases he
    · rw [expandType_typedef (by simpa using hb)] at he
      exact ih he
  | list _ ih =>
    rw [expandType_list, map_eq_ok] at he
    obtain ⟨a, ha, rfl⟩ := he
    rw [ih ha, Expansion.within]
  | @field file f r _ ih =>
    rw [expandType_field, map_eq_ok] at he
    obtain ⟨a, ha, rfl⟩ := he
    rw [ih ha, Expansion.inField]
    split <;> rfl

end ThriftGateway.Graph
