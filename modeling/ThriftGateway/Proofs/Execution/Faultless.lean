import Mathlib.Data.List.Nodup
import ThriftGateway.Proofs.Execution.Collecting

/-!
# Requests in which nothing is wrong

What is wrong with selections depends on the fragments that are named in them, not on the rest of a request
(`selectionsFaults_congr`, `conflictFaults_congr`).  In a request in which nothing is wrong, nothing is wrong with any
part, fragments have distinct names, and none stands within itself (`isFaultless_of_requestFaults`).
-/

namespace ThriftGateway.Execution

open Request (Document DocumentPart Fragment Operation SelectedField Selection fragment?)
open Schema (TypeSystem)

theorem selectionsFaults_eq (s : TypeSystem) (fragments : List Fragment) (depth : Nat) (parent : Option Parent)
    (xs : List Selection) :
    selectionsFaults s fragments depth parent xs = xs.flatMap (selectionFaults s fragments depth parent) := by
  induction xs with
  | nil => rfl
  | cons x xs ih => rw [selectionsFaults, ih, List.flatMap_cons]

theorem selectionsUses_eq (s : TypeSystem) (parent : Option Parent) (xs : List Selection) :
    selectionsUses s parent xs = xs.flatMap (selectionUses s parent) := by
  induction xs with
  | nil => rfl
  | cons x xs ih => rw [selectionsUses, ih, List.flatMap_cons]

private theorem mem_of_mem_pairsOf {α : Type} {xs : List α} {p : α × α} (h : p ∈ pairsOf xs) : p.1 ∈ xs ∧ p.2 ∈ xs := by
  induction xs with
  | nil => cases h
  | cons x xs ih =>
    rcases List.mem_append.1 h with h | h
    · obtain ⟨y, hy, rfl⟩ := List.mem_map.1 h
      exact ⟨List.mem_cons_self, List.mem_cons_of_mem _ hy⟩
    · exact ⟨List.mem_cons_of_mem _ (ih h).1, List.mem_cons_of_mem _ (ih h).2⟩

/-! ### Selections that name the same fragments -/

section

variable {A B : List Fragment} (hclosed : ∀ f ∈ B, SpreadsAlike A B f.selections)

include hclosed

/-- What is selected from the value of a field names the same fragments. -/
private theorem spreadsAlike_of_mem_gather {xs : List Selection} (h : SpreadsAlike A B xs) {x : SelectedField}
    (hx : x ∈ gather A xs) : SpreadsAlike A B x.selections := by
  rw [← gather_congr hclosed h] at hx
  obtain hsub | ⟨f, hf, hsub⟩ := spreadsIn_of_mem_gather hx
  · exact h.mono hsub
  · exact (hclosed f hf).mono hsub

/-- Two fields conflict under both lists, or under none. -/
private theorem conflictOf?_congr (fuel : Nat) {a b : SelectedField} (ha : SpreadsAlike A B a.selections)
    (hb : SpreadsAlike A B b.selections) : conflictOf? B fuel a b = conflictOf? A fuel a b := by
  induction fuel generalizing a b with
  | zero => rfl
  | succ fuel ih =>
    have hinside : ∀ key, ((gather A a.selections).filter (·.key = key)).flatMap (fun x =>
        ((gather A b.selections).filter (·.key = key)).filterMap fun y =>
          (conflictOf? B fuel x y).map fun r => (key, r)) =
        ((gather A a.selections).filter (·.key = key)).flatMap fun x =>
          ((gather A b.selections).filter (·.key = key)).filterMap fun y =>
            (conflictOf? A fuel x y).map fun r => (key, r) := by
      intro key
      refine List.flatMap_congr fun x hx => List.filterMap_congr fun y hy => ?_
      rw [ih (spreadsAlike_of_mem_gather hclosed ha (List.mem_filter.1 hx).1)
        (spreadsAlike_of_mem_gather hclosed hb (List.mem_filter.1 hy).1)]
    rw [conflictOf?, conflictOf?, gather_congr hclosed ha, gather_congr hclosed hb]
    simp only [hinside]

theorem conflictFaults_congr (depth : Nat) {xs : List Selection} (h : SpreadsAlike A B xs) :
    conflictFaults B depth xs = conflictFaults A depth xs := by
  rw [conflictFaults, conflictFaults, gather_congr hclosed h]
  refine List.flatMap_congr fun key _ => List.filterMap_congr fun ⟨a, b⟩ hp => ?_
  obtain ⟨ha, hb⟩ := mem_of_mem_pairsOf hp
  dsimp only
  rw [conflictOf?_congr hclosed depth (spreadsAlike_of_mem_gather hclosed h (List.mem_filter.1 ha).1)
    (spreadsAlike_of_mem_gather hclosed h (List.mem_filter.1 hb).1)]

private theorem listsWithin_congr (fuel : Nat) {x : SelectedField} (h : SpreadsAlike A B x.selections) :
    listsWithin B fuel x = listsWithin A fuel x := by
  induction fuel generalizing x with
  | zero => rfl
  | succ fuel ih =>
    rw [listsWithin, listsWithin, gather_congr hclosed h,
      List.map_congr_left fun y hy => ih (spreadsAlike_of_mem_gather hclosed h hy)]

private theorem listDepthFaults_congr (depth : Nat) {x : SelectedField} (h : SpreadsAlike A B x.selections) :
    listDepthFaults B depth x = listDepthFaults A depth x := by
  rw [listDepthFaults, listDepthFaults, listsWithin_congr hclosed depth h]

end

section

variable {A B : List Fragment}

mutual
private theorem selectionFaults_congr (hclosed : ∀ f ∈ B, SpreadsAlike A B f.selections) (s : TypeSystem) (depth : Nat)
    (parent : Option Parent) (x : Selection) (h : SpreadsAlike A B [x]) :
    selectionFaults s B depth parent x = selectionFaults s A depth parent x := by
  cases x with
  | field extent alias? written arguments directives braces selections =>
    have hinner : SpreadsAlike A B selections := fun n hn => h n (by simpa [spreadsInAll, spreadsIn] using hn)
    rw [selectionFaults, selectionFaults, conflictFaults_congr hclosed depth hinner,
      selectionsFaults_congr hclosed s depth _ selections hinner, listDepthFaults_congr hclosed depth hinner]
  | spread extent name directives =>
    have hname : fragment? B name.text = fragment? A name.text := h _ (by simp [spreadsInAll, spreadsIn])
    rw [selectionFaults, selectionFaults, hname]
  | inline extent condition directives braces selections =>
    have hinner : SpreadsAlike A B selections := fun n hn => h n (by simpa [spreadsInAll, spreadsIn] using hn)
    rw [selectionFaults, selectionFaults, conflictFaults_congr hclosed depth hinner,
      selectionsFaults_congr hclosed s depth _ selections hinner]

/-- The same is wrong with selections under two lists of fragments in which their names stand for the same. -/
theorem selectionsFaults_congr (hclosed : ∀ f ∈ B, SpreadsAlike A B f.selections) (s : TypeSystem) (depth : Nat)
    (parent : Option Parent) (xs : List Selection) (h : SpreadsAlike A B xs) :
    selectionsFaults s B depth parent xs = selectionsFaults s A depth parent xs := by
  cases xs with
  | nil => rfl
  | cons x xs =>
    have hx : SpreadsAlike A B [x] := fun n hn => h n (by simp_all [spreadsInAll])
    have hxs : SpreadsAlike A B xs := fun n hn => h n (by simp_all [spreadsInAll])
    rw [selectionsFaults, selectionsFaults, selectionFaults_congr hclosed s depth parent x hx,
      selectionsFaults_congr hclosed s depth parent xs hxs]
end

end

/-! ### Requests in which nothing is wrong -/

/-- Nothing is wrong with the parts of a request. -/
structure IsFaultless (s : TypeSystem) (d : Document) : Prop where
  operations : ∀ op ∈ d.operations, ∃ before, operationFaults s d before op = []
  fragments : ∀ f ∈ d.fragments, ∃ before, fragmentFaults s d before f = []
  distinct : (d.fragments.map Fragment.name).Nodup
  rings : ∀ f ∈ d.fragments, isWithinItself d.fragments f = false

section

variable {s : TypeSystem} {d : Document}

private theorem exists_of_mem_parts {before parts : List DocumentPart} (h : partsFaults s d before parts = [])
    {x : DocumentPart} (hx : x ∈ parts) : ∃ before', partFaults s d before' x = [] := by
  induction parts generalizing before with
  | nil => cases hx
  | cons y parts ih =>
    obtain ⟨hy, hparts⟩ := List.append_eq_nil_iff.1 h
    rcases List.mem_cons.1 hx with rfl | hx
    · exact ⟨before, hy⟩
    · exact ih hparts hx

private theorem mem_fragments {f : Fragment} : f ∈ d.fragments ↔ DocumentPart.fragment f ∈ d.parts := by
  rw [Document.fragments, List.mem_filterMap]
  constructor
  · rintro ⟨x, hx, hf⟩
    cases x <;> cases hf
    exact hx
  · exact fun h => ⟨_, h, rfl⟩

private theorem mem_operations {op : Operation} : op ∈ d.operations ↔ DocumentPart.operation op ∈ d.parts := by
  rw [Document.operations, List.mem_filterMap]
  constructor
  · rintro ⟨x, hx, hop⟩
    cases x <;> cases hop
    exact hx
  · exact fun h => ⟨_, h, rfl⟩

/-- What goes on from the fragments before to the next one holds of all fragments. -/
private theorem fragments_induction {P : List Fragment → Prop}
    (hstep : ∀ before f, fragmentFaults s d before f = [] → P before → P (before ++ [f]))
    {before parts : List DocumentPart} (h : partsFaults s d before parts = [])
    (hbefore : P (Document.fragments { d with parts := before })) :
    P (Document.fragments { d with parts := before ++ parts }) := by
  induction parts generalizing before with
  | nil => rwa [List.append_nil]
  | cons x parts ih =>
    obtain ⟨hx, hparts⟩ := List.append_eq_nil_iff.1 h
    rw [List.append_cons]
    refine ih hparts ?_
    rw [Document.fragments, List.filterMap_append]
    cases x with
    | operation op => rwa [List.filterMap_cons_none rfl, List.filterMap_nil, List.append_nil]
    | fragment f => exact hstep _ f hx hbefore

/-- If nothing is wrong with a request, nothing is wrong with its parts. -/
theorem isFaultless_of_requestFaults (h : requestFaults s d = []) : IsFaultless s d := by
  obtain ⟨hparts, -⟩ := List.append_eq_nil_iff.1 h
  constructor
  · intro op hop
    obtain ⟨before, hfaults⟩ := exists_of_mem_parts hparts (mem_operations.1 hop)
    exact ⟨_, hfaults⟩
  · intro f hf
    obtain ⟨before, hfaults⟩ := exists_of_mem_parts hparts (mem_fragments.1 hf)
    exact ⟨_, hfaults⟩
  · refine fragments_induction (P := fun fs => (fs.map Fragment.name).Nodup) (fun before f hf hbefore => ?_) hparts
      List.nodup_nil
    have hnew : ¬ before.any (·.name = f.name) = true := by
      intro hany
      simp only [fragmentFaults, List.append_eq_nil_iff, if_pos hany] at hf
      simp at hf
    rw [List.map_append, List.map_singleton, List.nodup_append]
    refine ⟨hbefore, List.nodup_singleton _, ?_⟩
    rintro a ha b hb rfl
    obtain ⟨g, hg, hname⟩ := List.mem_map.1 ha
    exact hnew (List.any_eq_true.2 ⟨g, hg, decide_eq_true (hname.trans (List.mem_singleton.1 hb))⟩)
  · refine fragments_induction (P := fun fs => ∀ f ∈ fs, isWithinItself d.fragments f = false)
      (fun before f hf hbefore => ?_) hparts nofun
    -- the first one that stood within itself would have been found
    have hfirst : ∀ names : List Fragment,
        (before.any fun g => isWithinItself d.fragments g && names.any (·.name = g.name)) = false := by
      intro names
      rw [List.any_eq_false]
      intro g hg
      rw [hbefore g hg]
      simp
    have hring : isWithinItself d.fragments f = false := by
      simp only [fragmentFaults, List.append_eq_nil_iff, ringFaults, hfirst] at hf
      simpa using hf.1.1.1.1.1.2
    intro g hg
    rcases List.mem_append.1 hg with hg | hg
    · exact hbefore g hg
    · exact List.mem_singleton.1 hg ▸ hring

/-- No fragment stands within itself, so fields are looked into as deep as there can be any. -/
theorem IsFaultless.conflictDepth_eq (h : IsFaultless s d) : conflictDepth d = d.size := by
  rw [conflictDepth, if_neg]
  simpa using h.rings

end

end ThriftGateway.Execution
