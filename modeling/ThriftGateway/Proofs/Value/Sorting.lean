import Mathlib.Data.List.Pairwise
import Mathlib.Data.String.Basic
import ThriftGateway.Value.Order

/-!
# Sorting texts

Texts have an order, so sorting them succeeds; it gives the same texts from the least to the greatest
(`exists_sort?_texts`), and leaves texts that are in order as they are (`sort?_of_sorted`).
-/

namespace ThriftGateway.Value

variable {x : String} {ts : List String}

private theorem less?_text (s t : String) : less? (.text s) (.text t) = some (decide (s < t)) := by
  rw [less?]

/-! ### Inserting -/

/-- Among texts in order, the place is behind those that are not greater; `lo` and `hi` bound where it still can be. -/
private theorem placeOf_texts (hts : ts.Pairwise (· ≤ ·)) (x : String) (lo hi : Nat) (hhi : hi ≤ ts.length)
    (hlo : lo ≤ hi) (hbelow : ∀ t ∈ ts.take lo, t ≤ x) (habove : ∀ t ∈ ts.drop hi, x < t) :
    ∃ i, placeOf (ts.map Value.text).toArray (.text x) lo hi = some i ∧ i ≤ ts.length ∧ (∀ t ∈ ts.take i, t ≤ x) ∧
      ∀ t ∈ ts.drop i, x < t := by
  induction hn : hi - lo using Nat.strongRecOn generalizing lo hi with
  | ind n ih =>
    subst hn
    rw [placeOf]
    by_cases h : lo < hi
    · have hmid : (lo + hi) / 2 < ts.length := by omega
      have hsplit := hts
      rw [← List.take_append_drop ((lo + hi) / 2) ts, List.pairwise_append, List.drop_eq_getElem_cons hmid,
        List.pairwise_cons] at hsplit
      obtain ⟨-, ⟨hbehind, -⟩, hahead⟩ := hsplit
      have hless : ((ts.map Value.text).toArray[(lo + hi) / 2]?).bind (less? (.text x)) =
          some (decide (x < ts[(lo + hi) / 2])) := by
        simp [hmid, less?_text]
      rw [dif_pos h]
      dsimp only
      rw [hless]
      by_cases hx : x < ts[(lo + hi) / 2]
      · rw [decide_eq_true hx]
        refine ih _ (by omega) lo _ (by omega) (by omega) hbelow (fun t ht => ?_) rfl
        rw [List.drop_eq_getElem_cons hmid] at ht
        rcases List.mem_cons.1 ht with rfl | ht
        · exact hx
        · exact lt_of_lt_of_le hx (hbehind t ht)
      · rw [decide_eq_false hx]
        refine ih _ (by omega) _ hi hhi (by omega) (fun t ht => ?_) habove rfl
        rw [List.take_succ_eq_append_getElem hmid] at ht
        rcases List.mem_append.1 ht with ht | ht
        · exact (hahead t ht _ List.mem_cons_self).trans (not_lt.1 hx)
        · rw [List.mem_singleton.1 ht]
          exact not_lt.1 hx
    · obtain rfl : lo = hi := by omega
      rw [dif_neg h]
      exact ⟨lo, rfl, hhi, hbelow, habove⟩

private theorem insertAll_texts (hts : ts.Pairwise (· ≤ ·)) (xs : List String) :
    ∃ us : List String, insertAll (ts.map Value.text).toArray (xs.map Value.text) = some (us.map Value.text).toArray ∧
      us.Perm (ts ++ xs) ∧ us.Pairwise (· ≤ ·) := by
  induction xs generalizing ts with
  | nil => exact ⟨ts, rfl, by simp, hts⟩
  | cons x xs ih =>
    obtain ⟨i, hi, hlength, hbelow, habove⟩ :=
      placeOf_texts hts x 0 ts.length le_rfl (Nat.zero_le _) (by simp) (by simp)
    have hsorted : (ts.take i ++ x :: ts.drop i).Pairwise (· ≤ ·) := by
      have hsplit := hts
      rw [← List.take_append_drop i ts, List.pairwise_append] at hsplit
      obtain ⟨htake, hdrop, hacross⟩ := hsplit
      refine List.pairwise_append.2 ⟨htake, List.pairwise_cons.2 ⟨fun t ht => (habove t ht).le, hdrop⟩, ?_⟩
      intro t ht u hu
      rcases List.mem_cons.1 hu with rfl | hu
      · exact hbelow t ht
      · exact hacross t ht u hu
    obtain ⟨us, hus, hperm, hus'⟩ := ih hsorted
    refine ⟨us, ?_, hperm.trans ?_, hus'⟩
    · rw [List.map_cons, insertAll, show (ts.map Value.text).toArray.size = ts.length by simp, hi, ← hus]
      dsimp only
      congr 1
      simp [List.map_take, List.map_drop, List.take_of_length_le]
    · rw [List.append_assoc, List.cons_append]
      refine (List.perm_middle).trans ?_
      rw [← List.append_assoc, List.take_append_drop]
      exact List.perm_middle.symm

/-! ### Runs -/

/-- What follows `last` in one direction, and what is left. -/
private theorem runFrom_texts (down : Bool) (last : String) (xs : List String) :
    ∃ run others : List String,
      runFrom down (.text last) (xs.map Value.text) = some (run.map Value.text, others.map Value.text) ∧
      run ++ others = xs ∧ List.IsChain (fun s t => decide (t < s) = down) (last :: run) := by
  induction xs generalizing last with
  | nil => exact ⟨[], [], rfl, rfl, by simp⟩
  | cons x xs ih =>
    rw [List.map_cons, runFrom, less?_text]
    dsimp only
    by_cases h : decide (x < last) = down
    · obtain ⟨run, others, hrun, happend, hchain⟩ := ih x
      rw [if_pos h, hrun]
      exact ⟨x :: run, others, rfl, by rw [List.cons_append, happend], List.isChain_cons_cons.2 ⟨h, hchain⟩⟩
    · rw [if_neg h]
      exact ⟨[], x :: xs, rfl, rfl, by simp⟩

/-- Texts that go down are in order from behind. -/
private theorem sorted_of_chain {down : Bool} (h : List.IsChain (fun s t => decide (t < s) = down) ts) :
    (if down then ts.reverse else ts).Pairwise (· ≤ ·) := by
  cases down with
  | true =>
    have hchain : List.IsChain (fun s t : String => t < s) ts := h.imp fun _ _ h => of_decide_eq_true h
    rw [if_pos rfl, List.pairwise_reverse]
    exact (List.isChain_iff_pairwise.1 hchain).imp fun h => h.le
  | false =>
    have hchain : List.IsChain (fun s t : String => s ≤ t) ts := h.imp fun _ _ h => not_lt.1 (of_decide_eq_false h)
    exact List.isChain_iff_pairwise.1 hchain

/-! ### Sorting -/

/-- Texts are sorted: the same ones, from the least to the greatest. -/
theorem exists_sort?_texts (xs : List String) :
    ∃ us : List String, sort? (xs.map Value.text) = some (us.map Value.text) ∧ us.Perm xs ∧ us.Pairwise (· ≤ ·) := by
  match xs with
  | [] => exact ⟨[], rfl, .refl _, .nil⟩
  | [x] => exact ⟨[x], rfl, .refl _, List.pairwise_singleton _ _⟩
  | x :: y :: rest =>
    obtain ⟨run, others, hrun, rfl, hchain⟩ := runFrom_texts (decide (y < x)) y rest
    have hsorted := sorted_of_chain (List.isChain_cons_cons.2 ⟨rfl, hchain⟩)
    obtain ⟨us, hus, hperm, hus'⟩ := insertAll_texts hsorted others
    refine ⟨us, ?_, hperm.trans ?_, hus'⟩
    · rw [List.map_cons, List.map_cons, sort?, less?_text]
      dsimp only
      rw [hrun]
      dsimp only
      have hmap : (if decide (y < x) = true then (Value.text x :: Value.text y :: run.map Value.text).reverse
          else Value.text x :: Value.text y :: run.map Value.text) =
          (if decide (y < x) = true then (x :: y :: run).reverse else x :: y :: run).map Value.text := by
        split
        · rw [List.map_reverse]
          rfl
        · rfl
      rw [hmap, hus]
      simp
    · have hrun : (if decide (y < x) = true then (x :: y :: run).reverse else x :: y :: run).Perm (x :: y :: run) := by
        split
        · exact List.reverse_perm _
        · exact .refl _
      exact hrun.append_right others

/-- Sorting leaves texts in order as they are. -/
theorem sort?_of_sorted (h : ts.Pairwise (· ≤ ·)) : sort? (ts.map Value.text) = some (ts.map Value.text) := by
  obtain ⟨us, hus, hperm, hsorted⟩ := exists_sort?_texts ts
  rw [hus, hperm.eq_of_pairwise (fun _ _ _ _ => le_antisymm) hsorted h]

end ThriftGateway.Value
