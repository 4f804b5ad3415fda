import ThriftGateway.Proofs.Source.Loading
import ThriftGateway.Source.Reference

/-!
# What references mean

A reference means the only declaration of its name in its file (`document_of_resolve`), and goes on meaning it when
documents are added (`resolve_of_extends`).
-/

namespace ThriftGateway.Source

open Idl (Declaration Document)

namespace Library

variable {l l' : Library} {reference : String} {file : Path} {r : Resolved}

/-- Documents that are in a library are in the other one too. -/
def Extends (l l' : Library) : Prop := ∀ p d, l.document? p = some d → l'.document? p = some d

theorem Extends.refl (l : Library) : l.Extends l := fun _ _ h => h

theorem Extends.trans {l'' : Library} (h : l.Extends l') (h' : l'.Extends l'') : l.Extends l'' :=
  fun p d hd => h' p d (h p d hd)

theorem extends_loadPending (t : FileTree) (l : Library) (ps : List Path) : l.Extends (loadPending t l ps).library := by
  obtain ⟨added, hadded⟩ := exists_entries_loadPending t l ps
  exact fun p d hd => document?_append hadded hd

theorem resolveIn_eq_ok {name : String} {context : Path} :
    l.resolveIn reference name file context = .ok r ↔
      r.file = file ∧ ∃ d, l.document? file = some d ∧ d.declarationsNamed name = [r.declaration] := by
  unfold resolveIn
  cases hd : l.document? file with
  | none => simp
  | some d =>
    cases hn : d.declarationsNamed name with
    | nil => simp [hn]
    | cons e es =>
      cases es with
      | nil =>
        obtain ⟨f, e'⟩ := r
        simp [hn, eq_comm]
      | cons e' es => simp [hn]

/-- Every document has one in the other library with the same includes, where names that are declared once are declared
in the same way. -/
def Covers (l l' : Library) : Prop :=
  ∀ p d, l.document? p = some d → ∃ d', l'.document? p = some d' ∧ d'.includes = d.includes ∧
    ∀ name e, d.declarationsNamed name = [e] → d'.declarationsNamed name = [e]

theorem Extends.covers (h : l.Extends l') : l.Covers l' := fun p d hd => ⟨d, h p d hd, rfl, fun _ _ he => he⟩

private theorem resolveStem_of_covers (h : l.Covers l') {stem : String} {context : Path}
    (hr : l.resolveStem reference stem context = .ok file) : l'.resolveStem reference stem context = .ok file := by
  unfold resolveStem at hr ⊢
  cases hd : l.document? context with
  | none => simp [hd] at hr
  | some d =>
    obtain ⟨d', hd', hincludes, -⟩ := h context d hd
    rw [hd] at hr
    rw [hd']
    dsimp only
    rw [hincludes]
    exact hr

/-- A reference is looked up in one file, by a name. -/
private theorem exists_resolveIn (h : l.resolve reference file = .ok r) :
    ∃ name f, l.resolveIn reference name f file = .ok r := by
  unfold resolve at h
  split at h
  · exact ⟨_, _, h⟩
  · split at h
    · cases h
    · exact ⟨_, _, h⟩
  · cases h

/-- A reference means the only declaration of its name in its file. -/
theorem document_of_resolve (h : l.resolve reference file = .ok r) :
    ∃ d, l.document? r.file = some d ∧ d.declarationsNamed r.declaration.name = [r.declaration] := by
  obtain ⟨name, f, h⟩ := exists_resolveIn h
  obtain ⟨rfl, d, hd, hn⟩ := resolveIn_eq_ok.1 h
  have hmem : r.declaration ∈ d.declarationsNamed name := by rw [hn]; simp
  have hname : r.declaration.name = name := by simpa using (List.mem_filter.1 hmem).2
  exact ⟨d, hd, by rw [hname, hn]⟩

theorem splitAt_of_not_mem {c : Char} {cs : List Char} (h : c ∉ cs) : Text.splitAt c cs = [cs] := by
  induction cs with
  | nil => rfl
  | cons d cs ih =>
    rw [List.mem_cons, not_or] at h
    rw [Text.splitAt, if_neg (Ne.symm h.1), ih h.2]

/-- A name without a dot means the only declaration of that name in the file. -/
theorem resolve_of_plain {d : Document} {e : Declaration} (hp : '.' ∉ reference.toList)
    (hd : l.document? file = some d) (he : d.declarationsNamed reference = [e]) :
    l.resolve reference file = .ok ⟨file, e⟩ := by
  unfold resolve
  rw [splitAt_of_not_mem hp, List.map_cons, List.map_nil, String.ofList_toList]
  exact resolveIn_eq_ok.2 ⟨rfl, d, hd, he⟩

/-- A reference means the same in a library that covers the other one. -/
theorem resolve_of_covers (h : l.Covers l') (hr : l.resolve reference file = .ok r) :
    l'.resolve reference file = .ok r := by
  have key : ∀ {name : String} {f : Path}, l.resolveIn reference name f file = .ok r →
      l'.resolveIn reference name f file = .ok r := by
    intro name f hr
    obtain ⟨hf, d, hd, hn⟩ := resolveIn_eq_ok.1 hr
    obtain ⟨d', hd', -, hnames⟩ := h f d hd
    exact resolveIn_eq_ok.2 ⟨hf, d', hd', hnames name _ hn⟩
  unfold resolve at hr ⊢
  split at hr
  · exact key hr
  · split at hr
    · cases hr
    · rename_i f hf
      simp only [resolveStem_of_covers h hf]
      exact key hr
  · cases hr

/-- A reference goes on meaning what it means when documents are added. -/
theorem resolve_of_extends (h : l.Extends l') (hr : l.resolve reference file = .ok r) :
    l'.resolve reference file = .ok r :=
  resolve_of_covers h.covers hr

/-- In a library, a file and a name have one declaration that a reference can mean. -/
theorem declaration_unique {context context' : Path} {reference' : String} {r' : Resolved}
    (h : l.resolve reference context = .ok r) (h' : l.resolve reference' context' = .ok r') (hf : r.file = r'.file)
    (hn : r.declaration.name = r'.declaration.name) : r = r' := by
  obtain ⟨d, hd, hs⟩ := document_of_resolve h
  obtain ⟨d', hd', hs'⟩ := document_of_resolve h'
  rw [hf, hd', Option.some.injEq] at hd
  subst hd
  rw [hn, hs', List.cons.injEq] at hs
  obtain ⟨f, e⟩ := r
  obtain ⟨f', e'⟩ := r'
  cases hf
  cases hs.1
  rfl

end Library

end ThriftGateway.Source
