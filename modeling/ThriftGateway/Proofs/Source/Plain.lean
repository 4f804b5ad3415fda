import ThriftGateway.Proofs.Idl.Nesting
import ThriftGateway.Proofs.Source.Reference

/-!
# Types in files

A type that is read from a file is plain: lists, sets and maps of it hold plain types again, and neither a field nor a
declaration stands at the place of a type.  Everything that is read from a file is made of plain types
(`isPlain_of_document`), and loading keeps a library so (`isPlain_loadPending`).
-/

namespace ThriftGateway

open Source (FileTree Library Path)

namespace Idl

/-- A type without a field or a declaration in it. -/
inductive TypeExpr.IsPlain : TypeExpr → Prop
  | base {line name} : IsPlain (.base line name)
  | list {line element} (h : IsPlain element) : IsPlain (.list line element)
  | set {line element} (h : IsPlain element) : IsPlain (.set line element)
  | map {line key value} (hk : IsPlain key) (hv : IsPlain value) : IsPlain (.map line key value)
  | named {line reference} : IsPlain (.named line reference)
  | void {line} : IsPlain (.void line)
  | other {kind} : IsPlain (.other kind)

/-- A declaration that is made of plain types. -/
def Declaration.IsPlain : Declaration → Prop
  | .struct s => ∀ f ∈ s.fields, f.type.IsPlain
  | .enumeration _ => True
  | .typedef t => t.target.IsPlain

/-- A statement that is made of plain types. -/
def Statement.IsPlain : Statement → Prop
  | .declaration d => d.IsPlain
  | .service s => ∀ f ∈ s.functions, f.result.IsPlain ∧ ∀ a ∈ f.arguments, a.type.IsPlain
  | _ => True

/-- A document that is made of plain types. -/
def Document.IsPlain (d : Document) : Prop := ∀ statement ∈ d.body, statement.IsPlain

/-- Nothing is declared inside of a plain type. -/
theorem TypeExpr.IsPlain.inside_eq_nil {t : TypeExpr} (h : t.IsPlain) : t.inside = [] := by
  induction h with
  | list _ ih => exact ih
  | base | set | map | named | void | other => rfl

theorem insideAll_eq_nil {fs : List Field} (h : ∀ f ∈ fs, f.type.IsPlain) : insideAll fs = [] := by
  rw [List.eq_nil_iff_forall_not_mem]
  intro d hd
  obtain ⟨f, hf, hd⟩ := mem_insideAll.1 hd
  rw [(h f hf).inside_eq_nil] at hd
  cases hd

/-- Nothing is declared inside of a declaration that is made of plain types. -/
theorem Declaration.inside_eq_nil {d : Declaration} (h : d.IsPlain) : d.inside = [] := by
  cases d with
  | struct s => exact s.inside_eq.trans (insideAll_eq_nil h)
  | enumeration e => rfl
  | typedef t => exact t.inside_eq.trans (TypeExpr.IsPlain.inside_eq_nil h)

/-! ### Reading -/

private theorem isPlain_headD {ts : List TypeExpr} (h : ∀ x ∈ ts, x.IsPlain) : (ts.headD (.other none)).IsPlain := by
  cases ts with
  | nil => exact .other
  | cons x xs => exact h x List.mem_cons_self

mutual
private theorem isPlain_of_mem_typesOf (t : Tree) : ∀ x ∈ typesOf t, x.IsPlain := by
  cases t with
  | leaf token => simp [typesOf]
  | node c ts =>
    have hall := isPlain_of_mem_typesOfAll ts
    unfold typesOf
    dsimp only
    split
    case h_1 | h_2 => exact hall
    case h_3 => exact List.forall_mem_singleton.2 .void
    case h_4 => exact List.forall_mem_singleton.2 .named
    case h_5 => exact List.forall_mem_singleton.2 .base
    case h_6 => exact List.forall_mem_singleton.2 (.list (isPlain_headD hall))
    case h_7 => exact List.forall_mem_singleton.2 (.set (isPlain_headD hall))
    case h_8 =>
      split
      · rename_i k v hkv
        rw [hkv] at hall
        exact List.forall_mem_singleton.2 (.map (hall k (by simp)) (hall v (by simp)))
      · exact List.forall_mem_singleton.2 (.map .other .other)
    case h_9 => exact List.forall_mem_nil _

private theorem isPlain_of_mem_typesOfAll (ts : List Tree) : ∀ x ∈ typesOfAll ts, x.IsPlain := by
  cases ts with
  | nil => simp [typesOfAll]
  | cons t ts =>
    intro x hx
    rw [typesOfAll, List.mem_append] at hx
    rcases hx with hx | hx
    · exact isPlain_of_mem_typesOf t x hx
    · exact isPlain_of_mem_typesOfAll ts x hx
end

private theorem isPlain_typeOf (t : Option Tree) : (typeOf t).IsPlain := by
  cases t with
  | none => exact .other
  | some t => exact isPlain_headD (isPlain_of_mem_typesOf t)

private theorem isPlain_of_mem_fieldsOf {x : CommentIndex} {t : Tree} {f : Field} (hf : f ∈ fieldsOf x t) :
    f.type.IsPlain := by
  obtain ⟨t', -, rfl⟩ := List.mem_map.1 hf
  exact isPlain_typeOf _

private theorem isPlain_of_definitionOf? {x : CommentIndex} {t : Tree} {statement : Statement}
    (h : definitionOf? x t = some statement) : statement.IsPlain := by
  unfold definitionOf? at h
  split at h <;> cases h
  case h_1 | h_3 => trivial
  case h_2 => exact isPlain_typeOf _
  case h_4 | h_5 | h_6 => exact fun f hf => isPlain_of_mem_fieldsOf hf
  case h_7 =>
    intro f hf
    obtain ⟨t', -, rfl⟩ := List.mem_map.1 hf
    exact ⟨isPlain_typeOf _, fun a ha => isPlain_of_mem_fieldsOf ha⟩

private theorem isPlain_of_statementOf? {x : CommentIndex} {t : Tree} {statement : Statement}
    (h : statementOf? x t = some statement) : statement.IsPlain := by
  unfold statementOf? at h
  split at h
  · cases h
    trivial
  · cases h
    trivial
  · split at h <;> cases h <;> trivial
  · exact isPlain_of_definitionOf? h
  · cases h

private theorem isPlain_of_parse {text : String} {d : Document} (h : parse text = .ok d) : d.IsPlain := by
  intro statement hs
  unfold parse at h
  split at h
  · cases h
  · split at h
    · cases h
      obtain ⟨tree, -, ht⟩ := List.mem_filterMap.1 hs
      exact isPlain_of_statementOf? ht
    · cases h

/-- What a document declares is made of plain types if the document is. -/
theorem Document.IsPlain.declaration {d : Document} (h : d.IsPlain) {e : Declaration} (he : e ∈ d.declarations) :
    e.IsPlain := by
  obtain ⟨statement, hs, hdeclared⟩ := List.mem_filterMap.1 he
  split at hdeclared
  · cases hdeclared
    exact h _ hs
  · cases hdeclared

/-- What the functions of a document take and give are plain types if the document is made of them. -/
theorem Document.IsPlain.function {d : Document} (h : d.IsPlain) {s : Service} (hs : s ∈ d.services) {f : Function}
    (hf : f ∈ s.functions) : f.result.IsPlain ∧ ∀ a ∈ f.arguments, a.type.IsPlain := by
  obtain ⟨statement, hstatement, hservice⟩ := List.mem_filterMap.1 hs
  split at hservice
  · cases hservice
    exact h _ hstatement f hf
  · cases hservice

end Idl

namespace Source

open Idl (Declaration Document TypeExpr)

/-- The document that is read from a file is made of plain types. -/
theorem isPlain_of_document {t : FileTree} {p : Path} {d : Document} (h : t.document p = .ok d) : d.IsPlain := by
  unfold FileTree.document readDocument at h
  split at h
  · cases h
  · split at h
    · cases h
    · split at h
      · cases h
      · cases h
      · rename_i hparse
        cases h
        exact fun statement hs => Idl.isPlain_of_parse hparse statement hs

/-- All documents are made of plain types. -/
def Library.IsPlain (l : Library) : Prop := ∀ e ∈ l.entries, e.2.IsPlain

theorem empty_isPlain : Library.empty.IsPlain := fun _ he => (List.not_mem_nil he).elim

theorem isPlain_loadPending {t : FileTree} {l : Library} {ps : List Path} (h : l.IsPlain) :
    (loadPending t l ps).library.IsPlain := by
  obtain ⟨added, hgrowth⟩ := exists_growth t l ps
  intro e he
  rw [hgrowth.entries, List.mem_append] at he
  rcases he with he | he
  · exact h e he
  · exact isPlain_of_document (hgrowth.document e he)

/-- What a reference means is declared in its file. -/
theorem Library.mem_declarations_of_resolve {l : Library} {reference : String} {file : Path} {r : Resolved}
    (h : l.resolve reference file = .ok r) :
    ∃ d, l.document? r.file = some d ∧ r.declaration ∈ d.declarations := by
  obtain ⟨d, hd, hn⟩ := document_of_resolve h
  have hmem : r.declaration ∈ d.declarationsNamed r.declaration.name := by rw [hn]; exact List.mem_singleton_self _
  exact ⟨d, hd, (List.mem_filter.1 hmem).1⟩

/-- A type, a field or a declaration, as it stands in the documents. -/
inductive Library.States (l : Library) (file : Path) : TypeExpr → Prop
  | plain {t} (h : t.IsPlain) : States l file t
  | field {f} (h : f.type.IsPlain) : States l file (.field f)
  | declared {d e} (hd : l.document? file = some d) (he : e ∈ d.declarations) : States l file (.declared e)

theorem Library.States.of_resolve {l : Library} {reference : String} {file : Path} {r : Resolved}
    (h : l.resolve reference file = .ok r) : l.States r.file (.declared r.declaration) := by
  obtain ⟨d, hd, he⟩ := mem_declarations_of_resolve h
  exact .declared hd he

end Source

end ThriftGateway
