import Mathlib.Data.List.Pairwise
import ThriftGateway.Value.Basic

/-!
# Maps with different keys

A map that is made from entries with different keys has these entries, in their order (`ofEntries_of_pairwise`); texts
are different keys if they are different (`record_eq_map`).
-/

namespace ThriftGateway.Value

theorem same_text (s t : String) : same (.text s) (.text t) = decide (s = t) := by
  rw [same]

private theorem putEntry_of_forall {entries : List (Value × Value)} {key value : Value}
    (h : ∀ e ∈ entries, same e.1 key = false) : putEntry key value entries = entries ++ [(key, value)] := by
  induction entries with
  | nil => rfl
  | cons e entries ih =>
    obtain ⟨k, v⟩ := e
    rw [List.forall_mem_cons] at h
    rw [putEntry, if_neg (by simp [h.1]), ih h.2, List.cons_append]

/-- Entries with different keys make the map that has them, in order. -/
theorem ofEntries_of_pairwise {entries : List (Value × Value)}
    (h : entries.Pairwise fun e e' => same e.1 e'.1 = false) : ofEntries entries = .map entries := by
  -- the keys that are left are none of those that are there
  have hfold : ∀ rest done : List (Value × Value), (done ++ rest).Pairwise (fun e e' => same e.1 e'.1 = false) →
      rest.foldl (fun es e => putEntry e.1 e.2 es) done = done ++ rest := by
    intro rest
    induction rest with
    | nil => simp
    | cons e rest ih =>
      intro done hd
      have hfresh : ∀ e' ∈ done, same e'.1 e.1 = false := fun e' he' =>
        (List.pairwise_append.1 hd).2.2 e' he' e List.mem_cons_self
      rw [List.foldl_cons, putEntry_of_forall hfresh, ih _ (by simpa using hd), List.append_assoc,
        List.singleton_append]
  unfold ofEntries
  rw [hfold entries [] h, List.nil_append]

/-- A map of different names has an entry for each, in order. -/
theorem record_eq_map (fields : List (String × Value)) (hn : (fields.map Prod.fst).Nodup) :
    record fields = .map (fields.map fun f => (.text f.1, f.2)) := by
  refine ofEntries_of_pairwise (List.pairwise_map.2 ?_)
  exact (List.pairwise_map.1 hn).imp fun h => by rw [same_text, decide_eq_false h]

end ThriftGateway.Value
