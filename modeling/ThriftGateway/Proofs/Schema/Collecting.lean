import ThriftGateway.Proofs.Graph.Making
import ThriftGateway.Proofs.Schema.Moving
import ThriftGateway.Proofs.Schema.Sides

/-!
# Collecting types to the end

`Collects` says by rules, without a bound, which types are collected.  The bound is never reached
(`collects_of_typeBound`): no type is collected twice, and there are no more types than scalars, nodes that there are,
and nodes that the known declarations may still get.
-/

namespace ThriftGateway.Schema

open Graph (Direction Fields FieldsError Makes Moves NamedType Node QueryNaming Scalar Session Work declaredBy
  isEnumeration isStruct)
open Idl (Declaration Function)
open Source (Path)

variable {all : List (Path × Declaration)}

/-- Collecting pending types in a session, with some met before, gives a result and leaves a session. -/
inductive Collects : Session → List (NamedType × Definition) → List NamedType →
    Except FieldsError (List (NamedType × Definition)) × Session → Prop
  | done {s met} : Collects s met [] (.ok met, s)
  | again {s met t pending r} (hmet : met.any (·.1 = t) = true) (h : Collects s met pending r) :
      Collects s met (t :: pending) r
  | failed {s s' met t pending e} (hmet : met.any (·.1 = t) = false) (hd : Work.run (define t) s = (.error e, s')) :
      Collects s met (t :: pending) (.error e, s')
  | missing {s s' met t pending r} (hmet : met.any (·.1 = t) = false) (hd : Work.run (define t) s = (.ok none, s'))
      (h : Collects s' met pending r) : Collects s met (t :: pending) r
  | found {s s' met t d pending r} (hmet : met.any (·.1 = t) = false)
      (hd : Work.run (define t) s = (.ok (some d), s'))
      (h : Collects s' (met ++ [(t, d)]) (d.references ++ pending) r) : Collects s met (t :: pending) r

/-! ### How many types there are -/

/-- A type that a session has: a scalar, or one of its nodes. -/
def IsKnown (s : Session) : NamedType → Prop
  | .scalar _ => True
  | .node id => id < s.nodes.length

private theorem IsKnown.of_grown {s s' : Session} (h : s.Grown all s') {t : NamedType} (ht : IsKnown s t) :
    IsKnown s' t := by
  obtain ⟨added, hadded, -⟩ := h.nodes
  cases t with
  | scalar x => trivial
  | node id =>
    show id < s'.nodes.length
    rw [hadded, List.length_append]
    exact Nat.lt_add_right _ ht

/-- All scalars. -/
def scalars : List Scalar := [.int, .float, .string, .boolean, .wide .int64, .wide .map, .wide .set]

private theorem mem_scalars (x : Scalar) : x ∈ scalars := by
  cases x with
  | wide x => cases x <;> decide
  | int | float | string | boolean => decide

/-- Beside the scalars, a session has no more types than nodes. -/
private theorem length_le_of_isKnown {s : Session} {ts : List NamedType} (hn : ts.Nodup) (h : ∀ t ∈ ts, IsKnown s t) :
    ts.length ≤ 7 + s.nodes.length := by
  have hsub : ts ⊆ scalars.map .scalar ++ (List.range s.nodes.length).map .node := by
    intro t ht
    cases t with
    | scalar x => exact List.mem_append_left _ (List.mem_map_of_mem (mem_scalars x))
    | node id => exact List.mem_append_right _ (List.mem_map_of_mem (List.mem_range.2 (h _ ht)))
  have hle := (List.subperm_of_subset hn hsub).length_le
  rwa [List.length_append, List.length_map, List.length_map, List.length_range] at hle

private theorem isKnown_of_define {t : NamedType} {s s' : Session} {d : Definition}
    (h : Work.run (define t) s = (.ok (some d), s')) : IsKnown s t := by
  cases t with
  | scalar x => trivial
  | node id =>
    obtain ⟨_, _, ⟨⟩, h⟩ := Work.run_bind_eq_ok.1 h
    cases hn : s.node? id with
    | none =>
      rw [hn] at h
      cases h
    | some node =>
      obtain ⟨entry, hentry, -⟩ := Option.map_eq_some_iff.1 hn
      exact (List.getElem?_eq_some_iff.1 hentry).1

/-! ### The bound -/

private theorem countP_add_countP_le (all : List (Path × Declaration)) :
    all.countP (isStruct ·.2) + all.countP (isEnumeration ·.2) ≤ all.length := by
  induction all with
  | nil => exact Nat.le_refl 0
  | cons e all ih =>
    have hone : (if isStruct e.2 then 1 else 0) + (if isEnumeration e.2 then 1 else 0) ≤ 1 := by
      cases e.2 <;> simp [isStruct, isEnumeration]
    rw [List.countP_cons, List.countP_cons, List.length_cons]
    omega

/-- Telling what a type is makes nodes of known declarations. -/
theorem define_makes (t : NamedType) : Makes all (define t) := by
  refine Moves.define fun s id node hn hs => ?_
  obtain ⟨entry, hentry, rfl⟩ := Option.map_eq_some_iff.1 hn
  exact Graph.nodeFields_makes (hs.nodes _ (List.mem_of_getElem? hentry)) s hs

/-- With a bound that no number of types reaches, collecting follows the rules: `s₀` is a session before, from which
on nodes of the declarations have been made. -/
private theorem collects_of_bound {s₀ : Session} (hs₀ : s₀.Within all) (fuel : Nat)
    (met : List (NamedType × Definition))
    (pending : List NamedType) (s : Session) (hs : s₀.Grown all s) (hmet : (met.map Prod.fst).Nodup)
    (hknown : ∀ t ∈ met.map Prod.fst, IsKnown s t)
    (hbound : 8 + s₀.nodes.length + 2 * all.length ≤ met.length + fuel) :
    Collects s met pending (Work.run (collectTypes fuel met pending) s) := by
  induction fuel, met, pending using collectTypes.induct generalizing s with
  | case1 fuel met =>
    rw [collectTypes_nil]
    exact .done
  | case2 fuel met t pending h ih =>
    rw [collectTypes_of_met h]
    exact .again h (ih s hs hmet hknown hbound)
  | case3 met t pending h =>
    -- more types have been met than there can be
    have hle := length_le_of_isKnown hmet hknown
    have hnodes := hs.length_le
    have hkinds := countP_add_countP_le all
    rw [List.length_map] at hle
    omega
  | case4 met t pending h fuel ihNone ihSome =>
    have hnew : met.any (·.1 = t) = false := Bool.eq_false_iff.2 h
    rw [collectTypes_succ h]
    have hgrown := define_makes t s (hs₀.of_grown hs)
    rw [Work.run_bind]
    split
    · rename_i d s' hd
      rw [hd] at hgrown
      have hknown' : ∀ t ∈ met.map Prod.fst, IsKnown s' t := fun t ht => (hknown t ht).of_grown hgrown
      cases d with
      | none => exact .missing hnew hd (ihNone s' (hs.trans hgrown) hmet hknown' (by omega))
      | some d =>
        refine .found hnew hd (ihSome d s' (hs.trans hgrown) ?_ ?_ ?_)
        · rw [List.map_append, List.map_singleton]
          refine List.nodup_append.2 ⟨hmet, List.nodup_singleton t, ?_⟩
          rintro t' ht' _ ht'' rfl
          obtain ⟨e, he, rfl⟩ := List.mem_map.1 ht'
          exact List.any_eq_false.1 hnew e he (decide_eq_true (List.mem_singleton.1 ht''))
        · rw [List.map_append, List.map_singleton]
          intro t' ht'
          rcases List.mem_append.1 ht' with ht' | ht'
          · exact hknown' t' ht'
          · rw [List.mem_singleton.1 ht']
            exact (isKnown_of_define hd).of_grown hgrown
        · rw [List.length_append, List.length_singleton]
          omega
    · rename_i e s' hd
      exact .failed hnew hd

/-- The bound is never reached. -/
theorem collects_of_typeBound (s : Session) (references : List NamedType) :
    Collects s [] references (Work.run (collectTypes (typeBound s) [] references) s) :=
  collects_of_bound s.within_declarations (typeBound s) [] references s (.refl s) List.nodup_nil nofun
    (Nat.le_add_left (typeBound s) 0)

end ThriftGateway.Schema
