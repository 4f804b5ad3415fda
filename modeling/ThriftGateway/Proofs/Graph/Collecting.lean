import Mathlib.Data.List.Forall2
import Mathlib.Data.List.Induction
import Mathlib.Data.List.Nodup
import ThriftGateway.Graph.Type

/-!
# Collecting by names

Bringing repeated keys together leaves the keys in the order in which they first occur (`collect_keys`), each with the
last item that has it (`getLast?_of_mem_collect`).
-/

namespace ThriftGateway.Graph

variable {α : Type} {key : α → String} {x y : α} {xs ys : List α}

theorem mem_of_mem_upsert (h : y ∈ upsert key x ys) : y = x ∨ y ∈ ys := by
  induction ys with
  | nil => simpa [upsert] using h
  | cons z zs ih =>
    unfold upsert at h
    split at h
    · rcases List.mem_cons.1 h with h | h
      · exact Or.inl h
      · exact Or.inr (List.mem_cons_of_mem _ h)
    · rcases List.mem_cons.1 h with rfl | h
      · exact Or.inr List.mem_cons_self
      · exact (ih h).imp_right (List.mem_cons_of_mem _)

theorem mem_of_mem_collect (h : x ∈ collect key xs) : x ∈ xs := by
  have key : ∀ (xs ys : List α), x ∈ xs.foldl (fun ys x => upsert key x ys) ys → x ∈ ys ∨ x ∈ xs := by
    intro xs
    induction xs with
    | nil => exact fun ys h => Or.inl h
    | cons z zs ih =>
      intro ys h
      rcases ih _ h with h | h
      · rcases mem_of_mem_upsert h with rfl | h
        · exact Or.inr List.mem_cons_self
        · exact Or.inl h
      · exact Or.inr (List.mem_cons_of_mem _ h)
  simpa using key xs [] h

theorem upsert_ne_nil (key : α → String) (x : α) (ys : List α) : upsert key x ys ≠ [] := by
  cases ys with
  | nil => simp [upsert]
  | cons y ys =>
    unfold upsert
    split <;> simp

theorem collect_ne_nil (h : xs ≠ []) : collect key xs ≠ [] := by
  rw [← List.dropLast_concat_getLast h, collect, List.foldl_append]
  exact upsert_ne_nil _ _ _

/-! ### Keys -/

theorem collect_concat (key : α → String) (xs : List α) (x : α) :
    collect key (xs ++ [x]) = upsert key x (collect key xs) := by
  rw [collect, List.foldl_append]
  rfl

private theorem upsert_of_notMem (h : key x ∉ ys.map key) : upsert key x ys = ys ++ [x] := by
  induction ys with
  | nil => rfl
  | cons y ys ih =>
    rw [List.map_cons, List.mem_cons, not_or] at h
    rw [upsert, if_neg (Ne.symm h.1), ih h.2, List.cons_append]

private theorem map_upsert_of_mem (h : key x ∈ ys.map key) : (upsert key x ys).map key = ys.map key := by
  induction ys with
  | nil => cases h
  | cons y ys ih =>
    unfold upsert
    split
    · rename_i hy
      rw [List.map_cons, List.map_cons, hy]
    · rename_i hy
      rw [List.map_cons, List.map_cons, ih ((List.mem_cons.1 h).resolve_left (Ne.symm hy))]

/-- A repeated key keeps its first place. -/
theorem collect_keys (key : α → String) (xs : List α) : (collect key xs).map key = (xs.map key).eraseDups := by
  induction xs using List.reverseRecOn with
  | nil => rfl
  | append_singleton xs x ih =>
    have hmem : key x ∈ (collect key xs).map key ↔ key x ∈ xs.map key := by rw [ih, List.mem_eraseDups]
    rw [collect_concat, List.map_append, List.map_singleton, List.eraseDups_append, ← ih, List.removeAll]
    by_cases h : key x ∈ xs.map key
    · rw [map_upsert_of_mem (hmem.2 h), List.filter_singleton, List.elem_eq_mem, decide_eq_true h]
      exact (List.append_nil _).symm
    · rw [upsert_of_notMem (mt hmem.1 h), List.map_append, List.filter_singleton, List.elem_eq_mem, decide_eq_false h]
      rfl

private theorem nodup_collect_keys (key : α → String) (xs : List α) : ((collect key xs).map key).Nodup := by
  induction xs using List.reverseRecOn with
  | nil => exact List.nodup_nil
  | append_singleton xs x ih =>
    rw [collect_concat]
    by_cases h : key x ∈ (collect key xs).map key
    · rwa [map_upsert_of_mem h]
    · rw [upsert_of_notMem h, List.map_append, List.map_singleton]
      exact List.concat_eq_append ▸ ih.concat h

theorem collect_of_nodup (h : (xs.map key).Nodup) : collect key xs = xs := by
  induction xs using List.reverseRecOn with
  | nil => rfl
  | append_singleton xs x ih =>
    rw [List.map_append, List.nodup_append] at h
    obtain ⟨hxs, -, hx⟩ := h
    rw [collect_concat, ih hxs, upsert_of_notMem]
    exact fun hmem => hx _ hmem _ (List.mem_singleton_self _) rfl

/-! ### Items -/

private theorem eq_of_mem_upsert_of_key (hys : (ys.map key).Nodup) (h : y ∈ upsert key x ys) (hy : key y = key x) :
    y = x := by
  induction ys with
  | nil => simpa [upsert] using h
  | cons z zs ih =>
    rw [List.map_cons, List.nodup_cons] at hys
    unfold upsert at h
    split at h
    · rename_i hz
      rcases List.mem_cons.1 h with h | h
      · exact h
      · exact absurd (List.mem_map_of_mem h) (hy.trans hz.symm ▸ hys.1)
    · rename_i hz
      rcases List.mem_cons.1 h with rfl | h
      · exact absurd hy hz
      · exact ih hys.2 h

/-- A repeated key takes the last item. -/
theorem getLast?_of_mem_collect (h : y ∈ collect key xs) : (xs.filter fun x => key x = key y).getLast? = some y := by
  induction xs using List.reverseRecOn with
  | nil => cases h
  | append_singleton xs x ih =>
    rw [collect_concat] at h
    rw [List.filter_append]
    by_cases hx : key x = key y
    · obtain rfl := eq_of_mem_upsert_of_key (nodup_collect_keys key xs) h hx.symm
      simp
    · have hmem : y ∈ collect key xs := (mem_of_mem_upsert h).resolve_left fun heq => hx (heq ▸ rfl)
      simp [hx, ih hmem]

/-! ### Items that correspond -/

section Corresponding

variable {β : Type} {R : α → β → Prop} {key' : β → String} (hkey : ∀ a b, R a b → key' b = key a)
include hkey

theorem forall₂_upsert {x' : β} (hx : R x x') {xs' : List β} (h : List.Forall₂ R xs xs') :
    List.Forall₂ R (upsert key x xs) (upsert key' x' xs') := by
  induction h with
  | nil => exact .cons hx .nil
  | cons hy hys ih =>
    unfold upsert
    rw [hkey _ _ hx, hkey _ _ hy]
    split
    · exact .cons hx hys
    · exact .cons hy ih

theorem forall₂_collect {xs' : List β} (h : List.Forall₂ R xs xs') :
    List.Forall₂ R (collect key xs) (collect key' xs') := by
  have hfold : ∀ {ys ys'}, List.Forall₂ R ys ys' →
      List.Forall₂ R (xs.foldl (fun ys x => upsert key x ys) ys) (xs'.foldl (fun ys x => upsert key' x ys) ys') := by
    induction h with
    | nil => exact id
    | cons hx _ ih => exact fun hys => ih (forall₂_upsert hkey hx hys)
  exact hfold .nil

end Corresponding

end ThriftGateway.Graph
