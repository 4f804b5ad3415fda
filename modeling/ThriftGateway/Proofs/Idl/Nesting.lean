import Mathlib.Data.List.Basic
import ThriftGateway.Idl.Nesting

/-!
# Declarations inside of declarations

What is inside of a field, a struct or a typedef is inside of the types that it is made of, and what is inside of a
declaration inside of a type is inside of the type (`TypeExpr.inside_trans`).
-/

namespace ThriftGateway.Idl

theorem Field.inside_eq (f : Field) : f.inside = f.type.inside := by cases f; rfl

theorem Struct.inside_eq (s : Struct) : s.inside = insideAll s.fields := by cases s; rfl

theorem Typedef.inside_eq (t : Typedef) : t.inside = t.target.inside := by cases t; rfl

theorem mem_insideAll {fs : List Field} {d : Declaration} : d ∈ insideAll fs ↔ ∃ f ∈ fs, d ∈ f.type.inside := by
  induction fs with
  | nil => simp [insideAll]
  | cons f fs ih => rw [insideAll, List.mem_append, ih, List.exists_mem_cons_iff, Field.inside_eq]

mutual
/-- What is inside of a declaration inside of a type is inside of the type. -/
theorem TypeExpr.inside_trans (t : TypeExpr) : ∀ d ∈ t.inside, ∀ e ∈ d.inside, e ∈ t.inside := by
  cases t with
  | list _ element => exact element.inside_trans
  | field f => exact f.inside_trans
  | declared x =>
    intro d hd e he
    rcases List.mem_cons.1 hd with rfl | hd
    · exact List.mem_cons_of_mem _ he
    · exact List.mem_cons_of_mem _ (x.inside_trans d hd e he)
  | base | set | map | named | void | other => exact nofun

theorem Field.inside_trans (f : Field) : ∀ d ∈ f.inside, ∀ e ∈ d.inside, e ∈ f.inside := by
  obtain ⟨_, _, _, _, type, _, _⟩ := f
  exact type.inside_trans

theorem insideAll_trans (fs : List Field) : ∀ d ∈ insideAll fs, ∀ e ∈ d.inside, e ∈ insideAll fs := by
  cases fs with
  | nil => exact nofun
  | cons f fs =>
    intro d hd e he
    rcases List.mem_append.1 hd with hd | hd
    · exact List.mem_append_left _ (f.inside_trans d hd e he)
    · exact List.mem_append_right _ (insideAll_trans fs d hd e he)

theorem Declaration.inside_trans (x : Declaration) : ∀ d ∈ x.inside, ∀ e ∈ d.inside, e ∈ x.inside := by
  cases x with
  | struct s =>
    obtain ⟨_, _, _, fields, _⟩ := s
    exact insideAll_trans fields
  | enumeration e => exact nofun
  | typedef t =>
    obtain ⟨_, _, target, _⟩ := t
    exact target.inside_trans
end

end ThriftGateway.Idl
