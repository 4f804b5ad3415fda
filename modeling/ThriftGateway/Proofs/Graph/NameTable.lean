import Mathlib.Data.List.Nodup
import Mathlib.Data.List.Perm.Subperm
import Std.Data.String.ToNat
import ThriftGateway.Graph.NameTable

/-!
# Names given out

A name that is given out was not in use (`isUsed_allocate`), and from then on it is (`used_allocate`).  So a table only
grows, and no name is given out twice.
-/

namespace ThriftGateway.Graph.NameTable

variable {t : NameTable} {preferred : String}

/-- Different numbers give different names. -/
private theorem numbered_injective (preferred : String) : Function.Injective (numbered preferred) := by
  intro m n h
  have hs : (preferred ++ toString m).toList = (preferred ++ toString n).toList := congrArg String.toList h
  rw [String.toList_append, String.toList_append, List.append_cancel_left_eq, String.toList_inj] at hs
  exact Nat.repr_injective hs

/-- If the search for a free number ends at a used one, so are all that it has passed. -/
private theorem isUsed_of_firstFree {fuel n : Nat} (h : t.isUsed (numbered preferred (t.firstFree preferred fuel n)))
    (k : Nat) (hk : k ≤ fuel) : t.isUsed (numbered preferred (n + k)) := by
  induction fuel generalizing n k with
  | zero =>
    obtain rfl : k = 0 := by omega
    exact h
  | succ fuel ih =>
    unfold firstFree at h
    split at h
    · rename_i hn
      cases k with
      | zero => exact hn
      | succ k =>
        have := ih h k (by omega)
        rwa [show n + 1 + k = n + (k + 1) by omega] at this
    · rename_i hn
      exact absurd h hn

/-- Of more numbers than there are names in use, one is free. -/
theorem isUsed_firstFree (t : NameTable) (preferred : String) (n : Nat) :
    t.isUsed (numbered preferred (t.firstFree preferred (t.used.length + 1) n)) = false := by
  by_contra h
  rw [Bool.not_eq_false] at h
  let names := (List.range (t.used.length + 2)).map fun k => numbered preferred (n + k)
  have hnodup : names.Nodup := by
    refine List.nodup_range.map fun k k' hk => ?_
    have := numbered_injective preferred hk
    omega
  have hsubset : names ⊆ t.used := by
    intro name hname
    obtain ⟨k, hk, rfl⟩ := List.mem_map.1 hname
    rw [List.mem_range] at hk
    simpa [isUsed] using isUsed_of_firstFree h k (by omega)
  have hlength := (List.subperm_of_subset hnodup hsubset).length_le
  simp only [names, List.length_map, List.length_range] at hlength
  omega

theorem allocate_of_notMem (hfree : preferred ∉ t.used) : (t.allocate preferred).1 = preferred := by
  unfold allocate
  rw [if_neg (by simpa [isUsed] using hfree)]

/-- A name that is given out was not in use. -/
theorem isUsed_allocate (t : NameTable) (preferred : String) : t.isUsed (t.allocate preferred).1 = false := by
  unfold allocate
  split
  · exact t.isUsed_firstFree preferred _
  · rename_i h
    simpa using h

/-- A name that is given out is in use from then on, beside the names that were. -/
theorem used_allocate (t : NameTable) (preferred : String) :
    (t.allocate preferred).2.used = (t.allocate preferred).1 :: t.used := by
  unfold allocate
  split <;> rfl

end ThriftGateway.Graph.NameTable
