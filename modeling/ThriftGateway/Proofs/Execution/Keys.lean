import ThriftGateway.Proofs.Execution.Alone
import ThriftGateway.Proofs.Execution.Completion

/-!
# What is under the keys of an answer

Each key of an answer has its own work, which ends as it does alone, so what is given under a key depends on the fields
of the key only (`valueUnder?_congr`), and an answer is made of what is given under its keys (`runFields_isolated`).
-/

namespace ThriftGateway.Execution

open Request (Document Operation SelectedField)
open Schema (RootField Schema TypeSystem)
open Service (CallError Task)

/-! ### Root fields by their keys -/

/-- The setting in which an operation runs. -/
def settingOf (s : TypeSystem) (d : Document) (op : Operation) (given : List (String × Value)) (context : Value) :
    Setting :=
  ⟨s, d, op, (readVariables s given op.parameters).1, context⟩

/-- The fields of a key, with the key. -/
def groupOf (fields : List SelectedField) (key : String) : Group := (key, fields.filter (·.key = key))

/-- How the call under a key ends, if there is one. -/
def callUnder? (s : Schema) (setting : Setting) (env : Environment) (g : Group) :
    Option (RootField × Except CallError Value) :=
  match workOf? s setting.bindings g with
  | some (_, .call f arguments) => some (f, (Task.start (invocationOf env setting.context f) arguments).alone.2)
  | _ => none

/-- What is given under a key, if an error does not go on to the root. -/
def valueUnder? (s : Schema) (setting : Setting) (env : Environment) (g : Group) : Option Value :=
  (workOf? s setting.bindings g).bind fun w => (rootEntryAlone setting env w).value

section

variable {s : Schema} {setting : Setting} {env : Environment} {g : Group}

@[simp] theorem value_ofCompleted (key : String) (round : Nat) (c : Completed) :
    (RootEntry.ofCompleted key round c).value = c.value? := by
  unfold RootEntry.ofCompleted Completed.value?
  cases c.result <;> rfl

@[simp] theorem key_ofCompleted (key : String) (round : Nat) (c : Completed) :
    (RootEntry.ofCompleted key round c).key = key := by
  unfold RootEntry.ofCompleted
  split <;> rfl

private theorem key_rootEntryAlone (setting : Setting) (env : Environment) (w : Group × RootWork) :
    (rootEntryAlone setting env w).key = w.1.1 := by
  obtain ⟨⟨key, selected⟩, w⟩ := w
  cases w <;> simp [rootEntryAlone]

/-- What a root field makes of the value that its call gives. -/
def resultUnder? (methods : Methods) (setting : Setting) (g : Group) (f : RootField) (v : Value) : Option Value :=
  (completeValue methods setting setting.document.size ⟨Schema.rootName, f.field.name⟩
    [Waypoint.key g.1 Schema.rootName] g.inner f.field.type v).value?

theorem value_call (g : Group) (f : RootField) (arguments : List (String × Value)) :
    (rootEntryAlone setting env (g, .call f arguments)).value =
      let v := (Task.start (invocationOf env setting.context f) arguments).alone.2.toOption.bind
        (resultUnder? env.methods setting g f)
      if f.field.type.isNonNull then v else some (v.getD .null) := by
  rw [rootEntryAlone, value_ofCompleted]
  unfold completeRoot
  rw [value?_settle]
  cases (Task.start (invocationOf env setting.context f) arguments).alone.2 <;> rfl

private theorem groupsOf_eq_map (fields : List SelectedField) :
    groupsOf fields = (keysOf fields).map (groupOf fields) :=
  groupsOf_eq fields

/-- Under a key there is a field. -/
private theorem exists_head_groupOf {fields : List SelectedField} {key : String} (h : key ∈ keysOf fields) :
    ∃ x ∈ fields, (groupOf fields key).2.head? = some x := by
  obtain ⟨x, hx, hkey⟩ := mem_keysOf.1 h
  cases hunder : fields.filter (·.key = key) with
  | nil => exact absurd (List.filter_eq_nil_iff.1 hunder x hx) (by simpa using hkey)
  | cons y ys =>
    have hy : y ∈ fields.filter (·.key = key) := hunder ▸ List.mem_cons_self
    exact ⟨y, (List.mem_filter.1 hy).1, by rw [groupOf, hunder]; rfl⟩

/-! ### Work under keys -/

/-- A field that can be selected from the root does something. -/
private theorem exists_rootWorkOf {x : SelectedField} (bindings : List (String × Value))
    (h : selectedField? s.known (rootParent s.known) x.name ≠ none) : ∃ w, rootWorkOf s bindings x = some w := by
  unfold rootWorkOf
  by_cases hname : x.name = typeNameField
  · exact ⟨.typeName, if_pos hname⟩
  · rw [if_neg hname]
    have hroot : (rootParent s.known).typeName = Schema.rootName := rfl
    rw [selectedField?, if_neg hname, if_pos hroot] at h
    cases hf : s.known.describingField? x.name with
    | some f =>
      dsimp only
      cases readArguments s.known bindings x.arguments f.arguments <;> exact ⟨_, rfl⟩
    | none =>
      cases hr : s.rootField? x.name with
      | some f =>
        dsimp only
        cases readArguments s.known bindings x.arguments f.field.arguments <;> exact ⟨_, rfl⟩
      | none =>
        have hfield : (rootParent s.known).field? x.name = none := by
          show List.find? _ (s.root.map (·.field)) = none
          rw [List.find?_map, Option.map_eq_none_iff]
          exact hr
        rw [hf, hfield] at h
        exact absurd rfl h

/-- Where the fields selected from the root are right, there is work under every key. -/
theorem exists_workOf? {d : Document} {op : Operation} {fields : List SelectedField}
    (h : SelectsFromRoot s.known d op fields) (bindings : List (String × Value)) {key : String}
    (hkey : key ∈ keysOf fields) : ∃ w, workOf? s bindings (groupOf fields key) = some w := by
  obtain ⟨x, hx, hhead⟩ := exists_head_groupOf hkey
  have hknown : selectedField? s.known (rootParent s.known) x.name ≠ none := by
    intro hnone
    have hfault := h.standsAtRoot.faultless
    rw [selectionsFaults_eq, List.flatMap_eq_nil_iff] at hfault
    have hx := hfault x.toSelection (List.mem_map.2 ⟨x, hx, rfl⟩)
    simp only [SelectedField.toSelection, selectionFaults, List.append_eq_nil_iff] at hx
    obtain ⟨⟨⟨⟨⟨⟨hfield, -⟩, -⟩, -⟩, -⟩, -⟩, -⟩ := hx
    rw [Option.bind_some, SelectedField.name] at hfield
    rw [SelectedField.name] at hnone
    simp [fieldFaults, hnone] at hfield
  obtain ⟨w, hw⟩ := exists_rootWorkOf bindings hknown
  exact ⟨(groupOf fields key, w), by rw [workOf?, hhead, Option.bind_some, hw, Option.map_some]⟩

private theorem callUnder?_eq {f : RootField} {r : Except CallError Value}
    (h : callUnder? s setting env g = some (f, r)) :
    ∃ arguments, workOf? s setting.bindings g = some (g, .call f arguments) ∧
      (Task.start (invocationOf env setting.context f) arguments).alone.2 = r := by
  unfold callUnder? at h
  split at h
  · rename_i g' f' arguments hw
    obtain ⟨rfl, hr⟩ := Prod.mk.inj (Option.some.inj h)
    obtain rfl : g' = g := fst_of_workOf? hw
    exact ⟨arguments, hw, hr⟩
  · cases h

/-- Where the call fails, `null` is given. -/
theorem valueUnder?_of_error (hroot : ∀ r ∈ s.root, r.field.type.isNonNull = false) {f : RootField} {e : CallError}
    (h : callUnder? s setting env g = some (f, .error e)) : valueUnder? s setting env g = some .null := by
  obtain ⟨arguments, hw, halone⟩ := callUnder?_eq h
  rw [valueUnder?, hw, Option.bind_some, value_call, halone, hroot f (mem_root_of_workOf? hw)]
  rfl

/-! ### What is under a key depends on the key alone -/

/-- The data of an answer: what is given under the keys, if no error goes on to the root. -/
def dataUnder (s : Schema) (setting : Setting) (env : Environment) (fields : List SelectedField) : Value :=
  match (keysOf fields).mapM fun k => (valueUnder? s setting env (groupOf fields k)).map (k, ·) with
  | some values => Value.record values
  | none => .null

variable {fields : List SelectedField}

/-- Fields of the root are answered with what is given under their keys, and the errors of calls that fail are
reported. -/
theorem runFields_isolated (setting : Setting) (env : Environment)
    (hroot : ∀ r ∈ s.root, r.field.type.isNonNull = false)
    (h : ∀ k ∈ keysOf fields, ∃ w, workOf? s setting.bindings (groupOf fields k) = some w) :
    ∃ errors trace, runFields s env setting fields = .answered (dataUnder s setting env fields) errors trace ∧
      ∀ k ∈ keysOf fields, ∀ f e, callUnder? s setting env (groupOf fields k) = some (f, .error e) →
        ⟨e.message, [.key k], .call e⟩ ∈ errors := by
  obtain ⟨errors, hperm, hrun⟩ := runFields_eq s env setting fields
  rw [groupsOf_eq_map, rootWork, List.filterMap_map] at hperm hrun
  have hentries : ∀ keys ⊆ keysOf fields,
      ((keys.filterMap (workOf? s setting.bindings ∘ groupOf fields)).map (rootEntryAlone setting env)).mapM
          (fun e => e.value.map fun v => (e.key, v)) =
        keys.mapM fun k => (valueUnder? s setting env (groupOf fields k)).map (k, ·) := by
    intro keys hkeys
    induction keys with
    | nil => rfl
    | cons k keys ih =>
      obtain ⟨w, hw⟩ := h k (hkeys List.mem_cons_self)
      have hkey : w.1.1 = k := by rw [fst_of_workOf? hw]; rfl
      have hwork : (workOf? s setting.bindings ∘ groupOf fields) k = some w := hw
      rw [List.filterMap_cons_some hwork, List.map_cons, List.mapM_cons, List.mapM_cons,
        ih (List.subset_of_cons_subset hkeys), key_rootEntryAlone, hkey, valueUnder?, hw, Option.bind_some]
  rw [dataOf, hentries _ (List.Subset.refl _)] at hrun
  refine ⟨errors, _, hrun, fun k hk f e hcall => ?_⟩
  obtain ⟨arguments, hw, halone⟩ := callUnder?_eq hcall
  have hnullable : f.field.type.isNonNull = false := hroot f (mem_root_of_workOf? hw)
  have hentry : (⟨e.message, [.key k], .call e⟩ : FieldError) ∈
      (rootEntryAlone setting env (groupOf fields k, .call f arguments)).errors := by
    simp [rootEntryAlone, completeRoot, halone, Completed.settle, hnullable, RootEntry.ofCompleted, pathOf,
      Waypoint.step, groupOf]
  refine hperm.mem_iff.2 (List.mem_flatMap.2 ⟨_, List.mem_map.2 ⟨_, ?_, rfl⟩, hentry⟩)
  exact List.mem_filterMap.2 ⟨k, hk, hw⟩

end

end ThriftGateway.Execution
