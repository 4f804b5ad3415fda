import ThriftGateway.Source.Path
import Mathlib.Data.List.Basic

/-!
# Canonical paths

A path is canonical if each of its components counts and none leads back.  Whatever is written, `Path.resolve` leads
from a canonical directory to a canonical path (`Path.resolve_isCanonical`), and so does an include
(`Path.ofInclude_isCanonical`).
-/

namespace ThriftGateway.Source

/-- A name that counts as a component: not empty, not a dot, and without a slash. -/
def IsComponent (c : String) : Prop := c ≠ "" ∧ c ≠ "." ∧ '/' ∉ c.toList

/-- Every component counts, and `..` stands only behind a name that nothing can have. -/
def Path.IsCanonical (p : Path) : Prop :=
  ∀ before c after, p.components = before ++ c :: after →
    IsComponent c ∧ (c = ".." → isPassable (Path.name ⟨before⟩) = false)

private theorem not_mem_of_mem_splitAt {c : Char} {cs l : List Char} (h : l ∈ Text.splitAt c cs) : c ∉ l := by
  induction cs generalizing l with
  | nil =>
    simp only [Text.splitAt, List.mem_singleton] at h
    simp [h]
  | cons d cs ih =>
    unfold Text.splitAt at h
    split at h
    · rcases List.mem_cons.1 h with rfl | h
      · simp
      · exact ih h
    · rename_i hd
      split at h
      · rename_i hs
        simp only [List.mem_singleton] at h
        subst h
        simpa using Ne.symm hd
      · rename_i m ls hs
        rcases List.mem_cons.1 h with rfl | h
        · have hm : c ∉ m := ih (by rw [hs]; simp)
          simp only [List.mem_cons, not_or]
          exact ⟨Ne.symm hd, hm⟩
        · exact ih (by rw [hs]; exact List.mem_cons_of_mem _ h)

/-- The components of a written path count. -/
private theorem isComponent_of_mem_writtenComponents {s c : String} (h : c ∈ writtenComponents s) : IsComponent c := by
  unfold writtenComponents at h
  rw [List.mem_filter, List.mem_map] at h
  obtain ⟨⟨l, hl, rfl⟩, hc⟩ := h
  have hc : String.ofList l ≠ "" ∧ String.ofList l ≠ "." := by simpa using hc
  refine ⟨hc.1, hc.2, ?_⟩
  rw [String.toList_ofList]
  exact not_mem_of_mem_splitAt hl

namespace Path

theorem root_isCanonical : root.IsCanonical := by
  intro before c after h
  simp [root] at h

/-- The directory of a canonical path is canonical. -/
theorem IsCanonical.parent {p : Path} (hp : p.IsCanonical) : p.parent.IsCanonical := by
  intro before c after h
  have hne : p.components ≠ [] := by
    intro hnil
    simp [Path.parent, hnil] at h
  have hsplit : p.parent.components ++ [p.components.getLast hne] = p.components :=
    List.dropLast_append_getLast hne
  refine hp before c (after ++ [p.components.getLast hne]) ?_
  calc p.components = p.parent.components ++ [p.components.getLast hne] := hsplit.symm
    _ = before ++ c :: (after ++ [p.components.getLast hne]) := by rw [h]; simp

/-- One component that counts, put behind a canonical path. -/
private theorem IsCanonical.snoc {p : Path} (hp : p.IsCanonical) {c : String} (hc : IsComponent c)
    (hback : c = ".." → isPassable p.name = false) : IsCanonical ⟨p.components ++ [c]⟩ := by
  intro before d after h
  rcases List.eq_nil_or_concat after with rfl | ⟨rest, last, rfl⟩
  · obtain ⟨rfl, rfl⟩ : p.components = before ∧ c = d := by
      have := List.append_inj' h rfl
      simpa using this
    exact ⟨hc, hback⟩
  · have h : p.components ++ [c] = (before ++ d :: rest) ++ [last] := by simpa using h
    exact hp before d rest (List.append_inj' h rfl).1

/-- Following a component from a canonical path leads to a canonical path. -/
theorem IsCanonical.step {p : Path} (hp : p.IsCanonical) {c : String} (hc : IsComponent c) :
    (p.step c).IsCanonical := by
  unfold Path.step
  split
  · exact hp.parent
  · rename_i hstep
    refine hp.snoc hc fun hback => ?_
    by_contra hpass
    exact hstep ⟨hback, by simpa using hpass⟩

/-- From a canonical directory, whatever is written leads to a canonical path. -/
theorem resolve_isCanonical {base : Path} (hb : base.IsCanonical) (written : String) :
    (base.resolve written).IsCanonical := by
  have key : ∀ (cs : List String) (p : Path), (∀ c ∈ cs, IsComponent c) → p.IsCanonical →
      (cs.foldl Path.step p).IsCanonical := by
    intro cs
    induction cs with
    | nil => exact fun p _ hp => hp
    | cons c cs ih =>
      intro p hcs hp
      exact ih (p.step c) (fun d hd => hcs d (List.mem_cons_of_mem _ hd)) (hp.step (hcs c (by simp)))
  unfold resolve
  refine key _ _ (fun c hc => isComponent_of_mem_writtenComponents hc) ?_
  split
  · exact root_isCanonical
  · exact hb

/-- An include of a file with a canonical path leads to a canonical path. -/
theorem ofInclude_isCanonical {file : Path} (hf : file.IsCanonical) (written : String) :
    (file.ofInclude written).IsCanonical :=
  resolve_isCanonical hf.parent written

end Path

end ThriftGateway.Source
