import Mathlib.Data.List.Induction
import Mathlib.Data.List.Nodup
import Mathlib.Data.List.Perm.Subperm
import ThriftGateway.Proofs.Value.Entries

/-!
# Maps whose names are repeated

A map that is made from fields has an entry for each different name of them, with what the last field of this name holds
(`record_eq_kept`).  So it has as many entries as there are fields exactly if no name is repeated (`length_kept_iff`).
-/

namespace ThriftGateway.Value

/-- The different names of some fields, in the order of their first uses. -/
def names (fields : List (String × Value)) : List String := (fields.map Prod.fst).eraseDups

/-- What the last of the fields with a name holds. -/
def lastUnder? (fields : List (String × Value)) (name : String) : Option Value := fields.reverse.lookup name

/-- The fields that are left if each replaces an earlier one with its name, in the place of the earlier one. -/
def kept (fields : List (String × Value)) : List (String × Value) :=
  (names fields).filterMap fun name => (lastUnder? fields name).map (name, ·)

/-- A field as an entry, with a text for its key. -/
def entryOf (f : String × Value) : Value × Value := (text f.1, f.2)

/-- A field with a new value if it has the name of the given one. -/
def replaceBy (f g : String × Value) : String × Value := if g.1 = f.1 then f else g

variable {fields : List (String × Value)} {f : String × Value} {name : String} {v : Value}

/-! ### One more field -/

private theorem names_append_singleton :
    names (fields ++ [f]) = if f.1 ∈ names fields then names fields else names fields ++ [f.1] := by
  unfold names
  rw [List.map_append, List.eraseDups_append]
  by_cases hf : f.1 ∈ fields.map Prod.fst
  · rw [if_pos (List.mem_eraseDups.2 hf)]
    simp [List.removeAll, hf]
  · rw [if_neg (mt List.mem_eraseDups.1 hf)]
    simp [List.removeAll, hf, List.eraseDups_cons]

private theorem lastUnder?_append_singleton :
    lastUnder? (fields ++ [f]) name = if name = f.1 then some f.2 else lastUnder? fields name := by
  unfold lastUnder?
  rw [List.reverse_append, List.reverse_singleton, List.singleton_append, List.lookup_cons]
  by_cases hname : name = f.1
  · simp [hname]
  · simp [hname, beq_false_of_ne hname]

theorem nodup_names : (names fields).Nodup := by
  induction fields using List.reverseRecOn with
  | nil => exact List.nodup_nil
  | append_singleton fields f ih =>
    rw [names_append_singleton]
    split
    · exact ih
    · rename_i hf
      exact ih.append (List.nodup_singleton _) (List.disjoint_singleton.2 hf)

/-- The names are those under which something is found. -/
private theorem mem_names : name ∈ names fields ↔ ∃ v, lastUnder? fields name = some v := by
  induction fields using List.reverseRecOn with
  | nil => simp [names, lastUnder?]
  | append_singleton fields f ih =>
    rw [names_append_singleton, lastUnder?_append_singleton]
    by_cases hname : name = f.1
    · rw [if_pos hname, hname]
      refine iff_of_true ?_ ⟨_, rfl⟩
      split
      · assumption
      · exact List.mem_append_right _ List.mem_cons_self
    · rw [if_neg hname, ← ih]
      split
      · rfl
      · simp [hname]

private theorem kept_append_singleton : kept (fields ++ [f]) =
    if f.1 ∈ names fields then (kept fields).map (replaceBy f) else kept fields ++ [f] := by
  unfold kept
  rw [names_append_singleton]
  split
  · rw [List.map_filterMap]
    refine List.filterMap_congr fun name hname => ?_
    obtain ⟨v, hv⟩ := mem_names.1 hname
    rw [lastUnder?_append_singleton, hv, Option.map_some, Option.map_some, replaceBy]
    by_cases heq : name = f.1
    · rw [if_pos heq, if_pos heq, heq]
      rfl
    · rw [if_neg heq, if_neg heq]
      rfl
  · rename_i hf
    rw [List.filterMap_append]
    congr 1
    · refine List.filterMap_congr fun name hname => ?_
      rw [lastUnder?_append_singleton, if_neg (ne_of_mem_of_not_mem hname hf)]
    · simp [lastUnder?_append_singleton]

/-! ### What is kept -/

theorem map_fst_kept : (kept fields).map Prod.fst = names fields := by
  induction fields using List.reverseRecOn with
  | nil => rfl
  | append_singleton fields f ih =>
    have hreplace : Prod.fst ∘ replaceBy f = Prod.fst := by
      funext g
      show (replaceBy f g).1 = g.1
      unfold replaceBy
      split
      · rename_i heq
        exact heq.symm
      · rfl
    rw [kept_append_singleton, names_append_singleton]
    split
    · rw [List.map_map, hreplace, ih]
    · rw [List.map_append, ih]
      rfl

theorem mem_kept : (name, v) ∈ kept fields ↔ lastUnder? fields name = some v := by
  unfold kept
  rw [List.mem_filterMap]
  constructor
  · rintro ⟨name', -, hv⟩
    obtain ⟨v', hv', heq⟩ := Option.map_eq_some_iff.1 hv
    cases heq
    exact hv'
  · intro hv
    exact ⟨name, mem_names.2 ⟨v, hv⟩, by rw [hv]; rfl⟩

/-- If no name is repeated then all is kept. -/
theorem kept_of_nodup (h : (fields.map Prod.fst).Nodup) : kept fields = fields := by
  induction fields using List.reverseRecOn with
  | nil => rfl
  | append_singleton fields f ih =>
    rw [List.map_append, List.nodup_append'] at h
    obtain ⟨hfields, -, hf⟩ := h
    have hnew : f.1 ∉ names fields := fun hmem => hf (List.mem_eraseDups.1 hmem) (by simp)
    rw [kept_append_singleton, if_neg hnew, ih hfields]

theorem kept_subperm : (kept fields).Subperm fields := by
  refine List.subperm_of_subset (List.Nodup.of_map Prod.fst ?_) fun g hg => ?_
  · rw [map_fst_kept]
    exact nodup_names
  · obtain ⟨front, back, hsplit, -⟩ := List.lookup_eq_some_iff.1 (mem_kept.1 hg)
    have hmem : g ∈ fields.reverse := by
      rw [hsplit]
      exact List.mem_append_right _ List.mem_cons_self
    exact List.mem_reverse.1 hmem

/-- As many fields are kept as there are if and only if no name is repeated. -/
theorem length_kept_iff : (kept fields).length = fields.length ↔ (fields.map Prod.fst).Nodup := by
  constructor
  · intro hlength
    have hperm : (kept fields).Perm fields := kept_subperm.perm_of_length_le (Nat.le_of_eq hlength.symm)
    rw [← (hperm.map Prod.fst).nodup_iff, map_fst_kept]
    exact nodup_names
  · intro h
    rw [kept_of_nodup h]

theorem kept_map (g : Value → Value) :
    kept (fields.map fun f => (f.1, g f.2)) = (kept fields).map fun f => (f.1, g f.2) := by
  have hnames : ∀ fields : List (String × Value), names (fields.map fun f => (f.1, g f.2)) = names fields := by
    intro fields
    rw [names, List.map_map]
    rfl
  induction fields using List.reverseRecOn with
  | nil => rfl
  | append_singleton fields f ih =>
    have hreplace : ∀ h : String × Value,
        replaceBy (f.1, g f.2) (h.1, g h.2) = ((replaceBy f h).1, g (replaceBy f h).2) := by
      intro h
      unfold replaceBy
      split <;> rfl
    rw [List.map_append, List.map_singleton, kept_append_singleton, kept_append_singleton, hnames, ih]
    split
    · rw [List.map_map, List.map_map]
      exact List.map_congr_left fun h _ => hreplace h
    · rw [List.map_append]
      rfl

/-! ### Maps -/

/-- A field put into a map replaces the one with its name, or comes last. -/
private theorem putEntry_text {fields : List (String × Value)} (h : (fields.map Prod.fst).Nodup) (f : String × Value) :
    putEntry (.text f.1) f.2 (fields.map entryOf) =
      (if f.1 ∈ fields.map Prod.fst then fields.map (replaceBy f) else fields ++ [f]).map entryOf := by
  induction fields with
  | nil => rfl
  | cons g fields ih =>
    rw [List.map_cons, List.nodup_cons] at h
    obtain ⟨hg, hfields⟩ := h
    rw [List.map_cons, entryOf, putEntry, same_text]
    by_cases hname : g.1 = f.1
    · -- no field with the name follows
      have hrest : fields.map (replaceBy f) = fields := by
        conv => rhs; rw [← List.map_id fields]
        refine List.map_congr_left fun g' hg' => if_neg fun heq => hg ?_
        rw [hname, ← heq]
        exact List.mem_map_of_mem hg'
      rw [if_pos (decide_eq_true hname), if_pos (by simp [hname]), List.map_cons, hrest, replaceBy, if_pos hname,
        List.map_cons, hname]
      rfl
    · rw [if_neg (by simpa using hname), ih hfields]
      by_cases hmem : f.1 ∈ fields.map Prod.fst
      · rw [if_pos hmem, List.map_cons, if_pos (List.mem_cons_of_mem _ hmem), List.map_cons, replaceBy, if_neg hname,
          List.map_cons]
        rfl
      · rw [if_neg hmem, List.map_cons, if_neg (by simpa [Ne.symm hname] using hmem)]
        rfl

/-- A map of fields has those that are kept as its entries. -/
theorem record_eq_kept (fields : List (String × Value)) :
    record fields = .map ((kept fields).map entryOf) := by
  unfold record ofEntries
  congr 1
  induction fields using List.reverseRecOn with
  | nil => rfl
  | append_singleton fields f ih =>
    rw [List.map_append, List.foldl_append, ih]
    have hnodup : ((kept fields).map Prod.fst).Nodup := by
      rw [map_fst_kept]
      exact nodup_names
    rw [kept_append_singleton, ← map_fst_kept, ← putEntry_text hnodup]
    rfl

end ThriftGateway.Value
