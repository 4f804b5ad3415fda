import Mathlib.Data.List.Induction
import Mathlib.Data.List.Nodup
import ThriftGateway.Execution.Response
import ThriftGateway.Proofs.Service.Interleaving

/-!
# Root fields, each on its own

An operation runs the calls of its root fields side by side.  What each field gives is what it would give on its own
(`rootEntryAlone`): this makes the data of an answer and, up to their order, its errors (`runFields_eq`).
-/

namespace ThriftGateway.Execution

open Request (SelectedField)
open Schema (RootField Schema)
open Service (Ending Task TraceEntry)

/-! ### Groups of fields -/

private theorem addToGroups_of_mem {x : SelectedField} {keys : List String} {members : String → List SelectedField}
    (hn : keys.Nodup) (hmem : x.key ∈ keys) :
    addToGroups x (keys.map fun k => (k, members k)) =
      keys.map fun k => (k, members k ++ if x.key = k then [x] else []) := by
  induction keys with
  | nil => cases hmem
  | cons key keys ih =>
    rw [List.nodup_cons] at hn
    by_cases hkey : x.key = key
    · have hrest : ∀ k ∈ keys, ¬ x.key = k := fun k hk heq => hn.1 (hkey ▸ heq ▸ hk)
      simp only [List.map_cons, addToGroups, hkey, if_true, List.cons.injEq, true_and]
      refine List.map_congr_left fun k hk => ?_
      rw [if_neg (hkey ▸ hrest k hk), List.append_nil]
    · have hmem := (List.mem_cons.1 hmem).resolve_left hkey
      simp [addToGroups, Ne.symm hkey, hkey, ih hn.2 hmem]

private theorem addToGroups_of_not_mem {x : SelectedField} {groups : List Group} (h : x.key ∉ groups.map Prod.fst) :
    addToGroups x groups = groups ++ [(x.key, [x])] := by
  induction groups with
  | nil => rfl
  | cons g groups ih =>
    rw [List.map_cons, List.mem_cons, not_or] at h
    rw [addToGroups, if_neg (Ne.symm h.1), ih h.2, List.cons_append]

private theorem keysOf_append_singleton (xs : List SelectedField) (x : SelectedField) :
    keysOf (xs ++ [x]) = keysOf xs ++ if x.key ∈ keysOf xs then [] else [x.key] := by
  have hmem : x.key ∈ keysOf xs ↔ x.key ∈ xs.map SelectedField.key := List.mem_eraseDups
  unfold keysOf at hmem ⊢
  rw [List.map_append, List.eraseDups_append]
  by_cases h : x.key ∈ xs.map SelectedField.key
  · rw [if_pos (hmem.2 h)]
    simp [List.removeAll, List.mem_map.1 h]
  · rw [if_neg (hmem.not.2 h)]
    have hnew : [x.key].removeAll (xs.map SelectedField.key) = [x.key] := by
      rw [List.removeAll, List.filter_cons_of_pos (by simpa using h), List.filter_nil]
    rw [List.map_singleton, hnew]
    rfl

theorem nodup_keysOf (fields : List SelectedField) : (keysOf fields).Nodup := by
  induction fields using List.reverseRecOn with
  | nil => exact List.nodup_nil
  | append_singleton xs x ih =>
    rw [keysOf_append_singleton]
    split
    · rwa [List.append_nil]
    · rename_i hnew
      exact List.nodup_append.2 ⟨ih, List.nodup_singleton _, by
        rintro a ha b hb rfl
        exact hnew (List.mem_singleton.1 hb ▸ ha)⟩

/-- The groups of fields are those of their keys, each with the fields of the key. -/
theorem groupsOf_eq (fields : List SelectedField) :
    groupsOf fields = (keysOf fields).map fun k => (k, fields.filter (·.key = k)) := by
  -- fields are added at the end
  induction fields using List.reverseRecOn with
  | nil => rfl
  | append_singleton xs x ih =>
    have hgroups : groupsOf (xs ++ [x]) = addToGroups x (groupsOf xs) := by simp [groupsOf]
    have hfilter : ∀ k, (xs ++ [x]).filter (·.key = k) =
        xs.filter (·.key = k) ++ if x.key = k then [x] else [] := by
      intro k
      by_cases hk : x.key = k <;> simp [List.filter_append, hk]
    rw [hgroups, ih, keysOf_append_singleton]
    split
    · rename_i hmem
      simp only [addToGroups_of_mem (nodup_keysOf xs) hmem, List.append_nil, hfilter]
    · rename_i hnew
      have hold : ∀ k ∈ keysOf xs, (k, (xs ++ [x]).filter (·.key = k)) = (k, xs.filter (·.key = k)) := by
        intro k hk
        have hne : ¬ x.key = k := fun heq => hnew (heq ▸ hk)
        rw [hfilter, if_neg hne, List.append_nil]
      have hnone : xs.filter (·.key = x.key) = [] := by
        rw [List.filter_eq_nil_iff]
        intro y hy hkey
        exact hnew (List.mem_eraseDups.2 (List.mem_map.2 ⟨y, hy, by simpa using hkey⟩))
      rw [addToGroups_of_not_mem (by simpa [Function.comp_def] using hnew), List.map_append,
        List.map_congr_left hold]
      simp [hnone]

private theorem nodup_groupsOf (fields : List SelectedField) : ((groupsOf fields).map Prod.fst).Nodup := by
  rw [groupsOf_eq, List.map_map]
  simpa [Function.comp_def] using nodup_keysOf fields

/-! ### Work of root fields -/

/-- The work of a group is done under its key. -/
theorem fst_of_workOf? {s : Schema} {bindings : List (String × Value)} {g : Group} {w : Group × RootWork}
    (h : workOf? s bindings g = some w) : w.1 = g := by
  obtain ⟨work, -, rfl⟩ := Option.map_eq_some_iff.1 h
  rfl

/-- The work under a key is that of a root field of the schema. -/
theorem mem_root_of_workOf? {s : Schema} {bindings : List (String × Value)} {g g' : Group} {f : RootField}
    {arguments : List (String × Value)} (h : workOf? s bindings g = some (g', .call f arguments)) : f ∈ s.root := by
  obtain ⟨work, hwork, heq⟩ := Option.map_eq_some_iff.1 h
  obtain ⟨-, rfl⟩ := Prod.mk.inj heq
  obtain ⟨x, -, hx⟩ := Option.bind_eq_some_iff.1 hwork
  unfold rootWorkOf at hx
  repeat' split at hx
  all_goals cases hx
  rename_i hf _
  exact List.mem_of_find?_eq_some hf

theorem nodup_rootWork (s : Schema) (bindings : List (String × Value)) (fields : List SelectedField) :
    ((rootWork s bindings (groupsOf fields)).map fun w => w.1.1).Nodup := by
  have hsub : (((groupsOf fields).filterMap (workOf? s bindings)).map fun w => w.1.1).Sublist
      ((groupsOf fields).map Prod.fst) := by
    induction groupsOf fields with
    | nil => exact .slnil
    | cons g groups ih =>
      rw [List.filterMap_cons]
      cases h : workOf? s bindings g with
      | none => exact ih.cons _
      | some w =>
        rw [List.map_cons, List.map_cons, fst_of_workOf? h]
        exact ih.cons_cons _
  exact hsub.nodup (nodup_groupsOf fields)

/-! ### Tasks of root fields -/

/-- The task of a root field that calls a function. -/
def taskOf? (env : Environment) (context : Value) (w : Group × RootWork) : Option Task :=
  match w.2 with
  | .call f arguments => some (Task.start (invocationOf env context f) arguments)
  | _ => none

/-- The tasks of root fields, each with the key of its field. -/
def keyedTasksOf (env : Environment) (context : Value) (work : List (Group × RootWork)) : List (String × Task) :=
  work.filterMap fun w => (taskOf? env context w).map (w.1.1, ·)

private theorem map_snd_keyedTasksOf (env : Environment) (context : Value) (work : List (Group × RootWork)) :
    (keyedTasksOf env context work).map Prod.snd = tasksOf env context work := by
  induction work with
  | nil => rfl
  | cons w work ih =>
    obtain ⟨g, w⟩ := w
    cases w <;> simp_all [keyedTasksOf, tasksOf, taskOf?]

theorem nodup_keyedTasksOf {env : Environment} {context : Value} {work : List (Group × RootWork)}
    (hn : (work.map fun w => w.1.1).Nodup) : ((keyedTasksOf env context work).map Prod.fst).Nodup := by
  refine List.Sublist.nodup ?_ hn
  clear hn
  induction work with
  | nil => exact .slnil
  | cons w work ih =>
    rw [keyedTasksOf, List.filterMap_cons]
    cases taskOf? env context w with
    | none => exact ih.cons _
    | some t => exact ih.cons_cons _

theorem isFresh_keyedTasksOf {env : Environment} {context : Value} {work : List (Group × RootWork)} :
    ∀ t ∈ keyedTasksOf env context work, t.2.IsFresh := by
  intro t hmem
  obtain ⟨⟨g, w⟩, -, hw⟩ := List.mem_filterMap.1 hmem
  obtain ⟨t, ht, rfl⟩ := Option.map_eq_some_iff.1 hw
  cases w with
  | call f arguments =>
    cases ht
    exact Task.isFresh_start _ _
  | typeName | description | refused => cases ht

/-! ### Entries of root fields -/

/-- What a root field gives on its own, in no particular round. -/
def rootEntryAlone (setting : Setting) (env : Environment) (w : Group × RootWork) : RootEntry :=
  match w with
  | (group, .typeName) => ⟨group.1, some (.text Schema.rootName), 0, []⟩
  | (group, .description f part) => .ofCompleted group.1 0 (completeDescription setting group f part)
  | (group, .refused f message) =>
    .ofCompleted group.1 0 (Completed.settle f.type ⟨[], .error ⟨message, [.key group.1], .arguments⟩⟩)
  | (group, .call f arguments) =>
    .ofCompleted group.1 0 (completeRoot env.methods setting group f.field
      (Task.start (invocationOf env setting.context f) arguments).alone.2)

/-- What a root field gives, whatever the round. -/
def RootEntry.timeless (e : RootEntry) : RootEntry := { e with round := 0 }

@[simp] theorem RootEntry.timeless_ofCompleted (key : String) (round : Nat) (c : Completed) :
    (RootEntry.ofCompleted key round c).timeless = .ofCompleted key 0 c := by
  unfold RootEntry.ofCompleted
  split <;> rfl

/-- If the calls end as they do on their own, the root fields give what they give on their own. -/
private theorem timeless_rootEntries {setting : Setting} {env : Environment} {work : List (Group × RootWork)}
    {endings : List Ending}
    (h : endings.map Ending.result = (tasksOf env setting.context work).map fun t => t.alone.2) :
    (rootEntries env.methods setting work endings).map RootEntry.timeless = work.map (rootEntryAlone setting env) := by
  induction work generalizing endings with
  | nil => rfl
  | cons w work ih =>
    obtain ⟨group, w⟩ := w
    cases w with
    | typeName => exact congrArg _ (ih h)
    | description f part =>
      rw [rootEntries, List.map_cons, ih h]
      simp [rootEntryAlone]
    | refused f message =>
      rw [rootEntries, List.map_cons, ih h]
      simp [rootEntryAlone]
    | call f arguments =>
      cases endings with
      | nil => cases h
      | cons ending endings =>
        obtain ⟨hresult, hrest⟩ := List.cons.inj h
        rw [rootEntries, List.map_cons, List.tail_cons, ih hrest]
        simp [rootEntryAlone, ← hresult]

private theorem dataOf_timeless (entries : List RootEntry) :
    dataOf (entries.map RootEntry.timeless) = dataOf entries := by
  unfold dataOf
  rw [List.mapM_map]
  rfl

private theorem errorsOf_perm (entries : List RootEntry) : (errorsOf entries).Perm (entries.flatMap RootEntry.errors) :=
  (List.mergeSort_perm entries _).flatMap_right RootEntry.errors

/-- What an operation whose fields of the root have been selected gives: each root field what it gives on its own. -/
theorem runFields_eq (s : Schema) (env : Environment) (setting : Setting) (fields : List SelectedField) :
    let work := rootWork s setting.bindings (groupsOf fields)
    let alone := work.map (rootEntryAlone setting env)
    ∃ errors, errors.Perm (alone.flatMap RootEntry.errors) ∧
      runFields s env setting fields = .answered (dataOf alone) errors
        ((Service.keyedRounds (Service.Stage.count + 1) (keyedTasksOf env setting.context work)).1.map Prod.snd) := by
  intro work alone
  have hfresh : ∀ t ∈ tasksOf env setting.context work, t.IsFresh := by
    rw [← map_snd_keyedTasksOf]
    intro t ht
    obtain ⟨u, hu, rfl⟩ := List.mem_map.1 ht
    exact isFresh_keyedTasksOf u hu
  have hentries : (rootEntries env.methods setting work (Service.runAll (tasksOf env setting.context work)).2).map
      RootEntry.timeless = alone := timeless_rootEntries (Service.results_runAll hfresh)
  have herrors : ∀ entries : List RootEntry,
      (entries.map RootEntry.timeless).flatMap RootEntry.errors = entries.flatMap RootEntry.errors := by
    intro entries
    rw [List.flatMap_map]
    rfl
  refine ⟨errorsOf (rootEntries env.methods setting work (Service.runAll (tasksOf env setting.context work)).2), ?_, ?_⟩
  · rw [← hentries, herrors]
    exact errorsOf_perm _
  · rw [Service.map_snd_keyedRounds, map_snd_keyedTasksOf, ← hentries, dataOf_timeless]
    rfl

end ThriftGateway.Execution
