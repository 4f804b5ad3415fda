import Mathlib.Logic.Relation
import ThriftGateway.Proofs.Graph.Naming
import ThriftGateway.Proofs.Schema.Assembling

/-!
# Schemas that pass the check

If the types of a schema are legal on their own (`Definition.IsLegal`), their names are distinct and no input object
needs itself to be given (`Schema.Needs`), the schema is valid (`isValid_of_isLegal`).
-/

namespace ThriftGateway.Schema

open Graph (IsLegalMember IsLegalName InputField NamedType OutputField Session Work)

/-! ### Distinct names -/

private theorem firstRepeated_eq_none {seen names : List String} :
    firstRepeated seen names = none ↔ names.Nodup ∧ ∀ n ∈ names, n ∉ seen := by
  induction names generalizing seen with
  | nil => simp [firstRepeated]
  | cons n names ih =>
    unfold firstRepeated
    rw [List.nodup_cons, List.forall_mem_cons]
    by_cases hn : n ∈ seen
    · simp [hn]
    · rw [if_neg (by simpa using hn), ih]
      simp only [List.mem_cons, not_or]
      constructor
      · rintro ⟨hnodup, hnew⟩
        exact ⟨⟨fun hmem => (hnew n hmem).1 rfl, hnodup⟩, hn, fun m hm => (hnew m hm).2⟩
      · rintro ⟨⟨hnot, hnodup⟩, -, hnew⟩
        exact ⟨hnodup, fun m hm => ⟨fun heq => hnot (heq ▸ hm), hnew m hm⟩⟩

/-! ### Types on their own -/

/-- A type that is legal on its own: it has fields or members, and all names are legal. -/
def Definition.IsLegal : Definition → Prop
  | .scalar _ => True
  | .object name _ fields =>
    IsLegalName name ∧ fields ≠ [] ∧ ∀ f ∈ fields, IsLegalName f.name ∧ ∀ a ∈ f.arguments, IsLegalName a.name
  | .input name _ fields => IsLegalName name ∧ fields ≠ [] ∧ ∀ f ∈ fields, IsLegalName f.name
  | .enumeration name _ members => IsLegalName name ∧ members ≠ [] ∧ ∀ m ∈ members, IsLegalMember m.name

namespace Definition.IsLegal

variable {d : Definition}

private theorem isLegalName (h : d.IsLegal) : IsLegalName d.name := by
  cases d with
  | scalar s => exact s.isLegalName
  | object name description fields => exact h.1
  | input name description fields => exact h.1
  | enumeration name description members => exact h.1

private theorem nameFault_of_isLegalName {name : String} (h : IsLegalName name) : nameFault name = [] := by
  rw [nameFault, if_neg (by simp [h.notHidden])]

private theorem flatMap_nameFault {α : Type} {xs : List α} {nameOf : α → String}
    (h : ∀ x ∈ xs, IsLegalName (nameOf x)) : (xs.flatMap fun x => nameFault (nameOf x)) = [] :=
  List.flatMap_eq_nil_iff.2 fun x hx => nameFault_of_isLegalName (h x hx)

/-- A legal type has no faults of its own. -/
private theorem faults (h : d.IsLegal) : d.faults = [] := by
  have hname := nameFault_of_isLegalName h.isLegalName
  cases d with
  | scalar s => exact hname
  | object name description fields =>
    obtain ⟨-, hne, hfields⟩ := h
    have hfaults : fieldFaults fields = [] := by
      refine List.flatMap_eq_nil_iff.2 fun f hf => ?_
      rw [nameFault_of_isLegalName (hfields f hf).1, flatMap_nameFault (hfields f hf).2]
      rfl
    unfold Definition.faults
    dsimp only
    rw [show nameFault name = [] from hname, if_neg (by simpa using hne), hfaults]
    rfl
  | input name description fields =>
    obtain ⟨-, hne, hfields⟩ := h
    unfold Definition.faults
    dsimp only
    rw [show nameFault name = [] from hname, if_neg (by simpa using hne), flatMap_nameFault hfields]
    rfl
  | enumeration name description members =>
    obtain ⟨-, hne, hmembers⟩ := h
    unfold Definition.faults
    dsimp only
    rw [show nameFault name = [] from hname, if_neg (by simpa using hne),
      flatMap_nameFault fun m hm => (hmembers m hm).isLegalName]
    rfl

end Definition.IsLegal

/-- The members of legal types have legal names. -/
private theorem checkAll_memberNames {s : Schema} (h : ∀ d ∈ s.definitions, d.IsLegal) :
    Graph.checkAll Graph.checkMemberName s.memberNames = .ok () := by
  refine Graph.checkAll_eq_ok.2 fun name hname => ?_
  obtain ⟨d, hd, hname⟩ := List.mem_flatMap.1 hname
  have hlegal := h d hd
  cases d with
  | enumeration n description members =>
    obtain ⟨m, hm, rfl⟩ := List.mem_map.1 hname
    exact (hlegal.2.2 m hm).check
  | scalar s => cases hname
  | object n description fields => cases hname
  | input n description fields => cases hname

/-! ### Input objects that need others -/

/-- An input object needs another: it has a field that must be given, and the field is the other one itself. -/
def Schema.Needs (s : Schema) (t t' : NamedType) : Prop :=
  ∃ name description fields, (t, .input name description fields) ∈ s.types ∧
    (∃ f ∈ fields, f.type = .nonNull (.named t')) ∧
    ∃ name' description' fields', (t', .input name' description' fields') ∈ s.types

private theorem mem_types_of_definition? {s : Schema} {t : NamedType} {d : Definition} (h : s.definition? t = some d) :
    (t, d) ∈ s.types := by
  unfold Schema.definition? TypeSystem.definition? Schema.system at h
  obtain ⟨e, he, rfl⟩ := Option.map_eq_some_iff.1 h
  obtain rfl : e.1 = t := by simpa using List.find?_some he
  exact List.mem_of_find?_eq_some he

/-- Every step behind an input object leads to one that it needs. -/
private theorem needs_of_mem {s : Schema} {t : NamedType} {name : String} {description : Option String}
    {fields : List InputField}
    (ht : (t, .input name description fields) ∈ s.types) {x : String × NamedType × String × List InputField}
    (hx : x ∈ needs s.system name fields) :
    s.Needs t x.2.1 ∧ ∃ description', (x.2.1, .input x.2.2.1 description' x.2.2.2) ∈ s.types := by
  obtain ⟨f, hf, hx⟩ := List.mem_filterMap.1 hx
  obtain ⟨n, hn, rfl⟩ := Option.map_eq_some_iff.1 hx
  unfold neededInput? at hn
  split at hn
  · rename_i t' htype
    split at hn
    · rename_i name' description' fields' hdefinition
      cases hn
      have hmem := mem_types_of_definition? hdefinition
      exact ⟨⟨name, description, fields, ht, ⟨f, hf, htype⟩, name', description', fields', hmem⟩, description', hmem⟩
    · cases hn
  · cases hn

section Search

variable {s : Schema} (hfinite : ∀ t, ¬Relation.TransGen s.Needs t t)

include hfinite

/-- A search behind an object that never leads back finds nothing: all objects on the way lead to the current one. -/
private theorem searchNeeds_faults {t : NamedType} (fuel : Nat) {way : Way} {path : List String}
    {pending : List (String × NamedType × String × List InputField)} {r : Search}
    (hway : ∀ e ∈ way, Relation.ReflTransGen s.Needs e.1 t)
    (hpending : ∀ x ∈ pending, s.Needs t x.2.1 ∧ ∃ description, (x.2.1, .input x.2.2.1 description x.2.2.2) ∈ s.types) :
    (searchNeeds s.system fuel way path pending r).faults = r.faults := by
  induction fuel generalizing t way path pending r with
  | zero => cases pending <;> rw [searchNeeds]
  | succ fuel ih =>
    induction pending generalizing r with
    | nil => rw [searchNeeds]
    | cons x pending ihPending =>
      obtain ⟨step, t', name, fields⟩ := x
      rw [List.forall_mem_cons] at hpending
      obtain ⟨⟨hneeds, description, ht'⟩, hpending⟩ := hpending
      rw [searchNeeds, ihPending hpending]
      split
      · rename_i start hlookup
        obtain ⟨front, behind, rfl, -⟩ := List.lookup_eq_some_iff.1 hlookup
        exact absurd (Relation.TransGen.tail' (hway (t', start) (by simp)) hneeds) (hfinite t')
      · split
        · rfl
        · rw [ih (t := t') ?_ fun x hx => needs_of_mem ht' hx]
          intro e he
          rcases List.mem_cons.1 he with rfl | he
          · exact .refl
          · exact (hway e he).tail hneeds

/-- If no input object leads back to itself, no search finds a fault. -/
private theorem foldl_searchType_faults {entries : List (NamedType × Definition)} (h : ∀ e ∈ entries, e ∈ s.types)
    (r : Search) : (entries.foldl (searchType s.system) r).faults = r.faults := by
  induction entries generalizing r with
  | nil => rfl
  | cons e entries ih =>
    rw [List.forall_mem_cons] at h
    rw [List.foldl_cons, ih h.2]
    obtain ⟨t, d⟩ := e
    cases d with
    | input name description fields =>
      unfold searchType searchFrom
      dsimp only
      split
      · rfl
      · rw [searchNeeds_faults hfinite (t := t) _ ?_ fun x hx => needs_of_mem h.1 hx]
        intro e he
        rw [List.mem_singleton.1 he]
    | scalar x => rfl
    | object name description fields => rfl
    | enumeration name description members => rfl

end Search

/-- A schema is valid if its types are legal, their names are distinct, and no input object needs itself. -/
theorem isValid_of_isLegal {s : Schema} (hlegal : ∀ d ∈ s.definitions, d.IsLegal)
    (hnames : (s.definitions.map Definition.name).Nodup) (hfinite : ∀ t, ¬Relation.TransGen s.Needs t t) :
    s.IsValid where
  distinct := by
    have hdescribing : ∀ n ∈ Graph.describingNames, Graph.isHidden n = true := by decide +kernel
    refine firstRepeated_eq_none.2 ⟨List.nodup_append.2 ⟨hnames, by decide, fun n hn m hm heq => ?_⟩, by simp⟩
    obtain ⟨d, hd, rfl⟩ := List.mem_map.1 hn
    have hhidden := hdescribing m hm
    rw [← heq, (hlegal d hd).isLegalName.notHidden] at hhidden
    cases hhidden
  members := checkAll_memberNames hlegal
  faultless := by
    unfold Schema.faults
    rw [List.flatMap_eq_nil_iff.2 fun d hd => (hlegal d hd).faults,
      foldl_searchType_faults hfinite fun _ he => he]
    rfl

/-- A root field that can be part of a schema. -/
def RootField.IsLegal (r : RootField) : Prop :=
  IsLegalName r.field.name ∧ ∀ a ∈ r.field.arguments, IsLegalName a.name

/-! ### Schemas of scalars -/

private theorem name_ne_rootName (x : Graph.Scalar) : x.name ≠ rootName := by
  cases x with
  | wide w => cases w <;> decide
  | _ => decide

/-- A schema whose root fields have to do with scalars only is valid. -/
theorem isValid_of_scalars {root : List RootField} {xs : List Graph.Scalar} (hne : root ≠ [])
    (hlegal : ∀ r ∈ root, r.IsLegal) (hxs : xs.Nodup) :
    Schema.IsValid ⟨root, xs.map fun x => (.scalar x, .scalar x)⟩ := by
  refine isValid_of_isLegal (fun d hd => ?_) ?_ fun t ht => ?_
  · rcases List.mem_cons.1 hd with rfl | hd
    · refine ⟨of_decide_eq_true (by decide +kernel), mt List.map_eq_nil_iff.1 hne, fun f hf => ?_⟩
      obtain ⟨r, hr, rfl⟩ := List.mem_map.1 hf
      exact hlegal r hr
    · obtain ⟨e, he, rfl⟩ := List.mem_map.1 hd
      obtain ⟨x, -, rfl⟩ := List.mem_map.1 he
      trivial
  · show (rootName :: ((xs.map fun x => ((.scalar x : NamedType), Definition.scalar x)).map Prod.snd).map
      Definition.name).Nodup
    rw [List.map_map, List.map_map, List.nodup_cons]
    refine ⟨fun hmem => ?_, hxs.map Graph.Scalar.name_injective⟩
    obtain ⟨x, -, hx⟩ := List.mem_map.1 hmem
    exact name_ne_rootName x hx
  · -- there is no input object
    obtain ⟨-, ⟨_, _, _, hinput, -⟩, -⟩ := Relation.TransGen.head'_iff.1 ht
    obtain ⟨x, -, hx⟩ := List.mem_map.1 hinput
    cases hx

/-- A scalar that has not been met is added. -/
theorem collectTypes_of_scalar {fuel : Nat} {met : List (NamedType × Definition)} {x : Graph.Scalar}
    {pending : List NamedType} (h : ¬(met.any (·.1 = .scalar x)) = true) :
    collectTypes (fuel + 1) met (.scalar x :: pending) =
      collectTypes fuel (met ++ [(.scalar x, .scalar x)]) pending := by
  rw [collectTypes_succ h]
  rfl

/-- Where root fields have to do with one scalar, it is the only type. -/
private theorem collectTypes_of_forall {x : Graph.Scalar} {fuel : Nat} {ts : List NamedType}
    (h : ∀ t ∈ ts, t = .scalar x) (hne : ts ≠ []) : collectTypes (fuel + 1) [] ts = pure [(.scalar x, .scalar x)] := by
  have hmet : ∀ ts : List NamedType, (∀ t ∈ ts, t = .scalar x) →
      collectTypes fuel [(.scalar x, .scalar x)] ts = pure [(.scalar x, .scalar x)] := by
    intro ts h
    induction ts with
    | nil => exact collectTypes_nil
    | cons t ts ih =>
      obtain ⟨rfl, hts⟩ := List.forall_mem_cons.1 h
      rw [collectTypes_of_met (by simp), ih hts]
  obtain ⟨t, ts, rfl⟩ := List.exists_cons_of_ne_nil hne
  obtain ⟨rfl, hts⟩ := List.forall_mem_cons.1 h
  rw [collectTypes_of_scalar (by simp)]
  exact hmet ts hts

/-- Root fields that have to do with one scalar only make a schema, and leave the session as it is. -/
theorem run_assemble_of_scalar {queries : Graph.QueryNaming} {offers : List Offer} {s s' : Session}
    {root : List RootField} {x : Graph.Scalar} (hroot : Work.run (rootFields queries offers) s = (.ok root, s'))
    (hne : root ≠ []) (hlegal : ∀ r ∈ root, r.IsLegal)
    (honly : ∀ t ∈ outputReferences (root.map RootField.field), t = .scalar x) :
    Work.run (assemble queries offers) s = (.ok ⟨root, [(.scalar x, .scalar x)]⟩, s'.close) := by
  have hnames : Graph.checkAll Graph.checkName (root.map (·.field.name)) = .ok () := by
    refine Graph.checkAll_eq_ok.2 fun name hname => ?_
    obtain ⟨r, hr, rfl⟩ := List.mem_map.1 hname
    exact (hlegal r hr).1.isName
  have hsome : outputReferences (root.map RootField.field) ≠ [] := by
    obtain ⟨r, rs, rfl⟩ := List.exists_cons_of_ne_nil hne
    exact List.cons_ne_nil _ _
  have htypes : Work.run (collectTypes (typeBound s') [] (outputReferences (root.map RootField.field))) s' =
      (.ok [(.scalar x, .scalar x)], s') := by
    obtain ⟨fuel, hfuel⟩ := Nat.exists_eq_add_one_of_ne_zero (show typeBound s' ≠ 0 by unfold typeBound; omega)
    rw [hfuel, collectTypes_of_forall honly hsome]
    rfl
  exact run_assemble_of_ok hroot hnames htypes (isValid_of_scalars hne hlegal (List.nodup_singleton x))

end ThriftGateway.Schema
