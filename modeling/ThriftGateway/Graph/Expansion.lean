import ThriftGateway.Graph.Type
import ThriftGateway.Source.Reference

/-!
# What a type expression stands for

Lists, fields, references and typedefs lead from a type expression to a core: a scalar, a struct or an enumeration.
`expandType` follows them and refuses a typedef that leads back to itself.  The recursion ends because a typedef
being expanded is not expanded again.
-/

namespace ThriftGateway.Graph

open Idl (Declaration Kind TypeExpr)
open Source (Library Path ReferenceError Resolved)

/-- Where a type expression ends. -/
inductive Core where
  | scalar (s : Scalar)
  | struct (file : Path) (s : Idl.Struct)
  | enumeration (file : Path) (e : Idl.Enumeration)
  deriving Repr

/-- What is put around a type. -/
inductive Wrapping where
  | list
  /-- A mark that forbids `null`. -/
  | nonNull
  deriving DecidableEq, Repr

/-- A core with what is around it, the outermost first. -/
structure Expansion where
  around : List Wrapping
  core : Core
  deriving Repr

/-- Why a type expression stands for nothing. -/
inductive ExpansionError where
  | reference (error : ReferenceError)
  /-- There is no type for a node of this kind. -/
  | unsupported (kind : Option Kind) (file : Path)
  deriving DecidableEq, Repr

/-- A core alone. -/
def Expansion.bare (core : Core) : Expansion := ⟨[], core⟩

/-- One more wrapping around. -/
def Expansion.within (e : Expansion) (w : Wrapping) : Expansion := { e with around := w :: e.around }

/-- What a field puts around its type. -/
def Expansion.inField (e : Expansion) (f : Idl.Field) : Expansion :=
  if f.requiredness = some .required then e.within .nonNull else e

/-- The files and names of all declarations. -/
def declaredKeys (l : Library) : List (Path × String) :=
  l.entries.flatMap fun e => e.2.declarations.map fun d => (e.1, d.name)

/-- How many declarations are not being expanded. -/
def idleCount (l : Library) (busy : List (Path × String)) : Nat :=
  ((declaredKeys l).filter fun k => !busy.contains k).length

theorem mem_declaredKeys_of_resolve {l : Library} {reference : String} {file : Path} {r : Resolved}
    (h : l.resolve reference file = .ok r) : (r.file, r.declaration.name) ∈ declaredKeys l := by
  have key : ∀ {name : String} {f c : Path}, l.resolveIn reference name f c = .ok r →
      (r.file, r.declaration.name) ∈ declaredKeys l := by
    intro name f c h
    unfold Library.resolveIn at h
    split at h
    · simp at h
    · next d hd =>
      split at h
      · simp at h
      · next declaration hn =>
        simp only [Except.ok.injEq] at h
        subst h
        unfold Library.document? at hd
        simp only [Option.map_eq_some_iff] at hd
        obtain ⟨e, he, rfl⟩ := hd
        have hf : e.1 = f := by simpa using List.find?_some he
        have hm : declaration ∈ e.2.declarationsNamed name := by rw [hn]; simp
        have hm : declaration ∈ e.2.declarations := (List.mem_filter.1 hm).1
        exact List.mem_flatMap.2 ⟨e, List.mem_of_find?_eq_some he, List.mem_map.2 ⟨declaration, hm, by rw [hf]⟩⟩
      · simp at h
  unfold Library.resolve at h
  split at h
  · exact key h
  · split at h
    · simp at h
    · exact key h
  · simp at h

/-- Marking a declaration as being expanded leaves fewer idle ones. -/
theorem idleCount_cons_lt {l : Library} {busy : List (Path × String)} {k : Path × String}
    (hk : k ∈ declaredKeys l) (hb : busy.contains k = false) : idleCount l (k :: busy) < idleCount l busy := by
  refine Source.length_filter_lt ?_ hk (by simpa using hb) (by simp)
  intro x hx
  simp only [List.contains_cons, Bool.not_or, Bool.and_eq_true] at hx
  exact hx.2

/-- Marking a declaration as being expanded leaves no more idle ones. -/
theorem idleCount_cons_le (l : Library) (busy : List (Path × String)) (k : Path × String) :
    idleCount l (k :: busy) ≤ idleCount l busy := by
  unfold idleCount
  rw [← List.countP_eq_length_filter, ← List.countP_eq_length_filter]
  refine List.countP_mono_left fun x _ hx => ?_
  simp only [List.contains_cons, Bool.not_or, Bool.and_eq_true] at hx
  exact hx.2

/-- What a type expression in a file stands for, while some typedefs are being expanded. -/
def expandType (l : Library) (busy : List (Path × String)) (file : Path) : TypeExpr →
    Except ExpansionError Expansion
  | .base _ name =>
    match Scalar.ofBase? name with
    | some s => .ok (.bare (.scalar s))
    | none => .error (.unsupported (some .base) file)
  | .list _ element => (expandType l busy file element).map (·.within .list)
  | .map .. => .ok (.bare (.scalar (.wide .map)))
  | .set .. => .ok (.bare (.scalar (.wide .set)))
  | .field f => (expandType l busy file f.type).map (·.inField f)
  | .declared (.struct s) => .ok (.bare (.struct file s))
  | .declared (.enumeration e) => .ok (.bare (.enumeration file e))
  | .declared (.typedef t) =>
    if busy.contains (file, t.name) then .error (.reference (.unresolved t.name file .typedefCycle))
    else expandType l ((file, t.name) :: busy) file t.target
  | .named _ reference =>
    match _h : l.resolve reference file with
    | .error e => .error (.reference e)
    | .ok r =>
      match _hd : r.declaration with
      | .struct s => .ok (.bare (.struct r.file s))
      | .enumeration e => .ok (.bare (.enumeration r.file e))
      | .typedef t =>
        if _hb : busy.contains (r.file, t.name) then
          .error (.reference (.unresolved t.name r.file .typedefCycle))
        else expandType l ((r.file, t.name) :: busy) r.file t.target
  | .void _ => .error (.unsupported (some .void) file)
  | .other kind => .error (.unsupported kind file)
  termination_by t => (idleCount l busy, sizeOf t)
  decreasing_by
    · exact Prod.Lex.right _ (by simp only [TypeExpr.list.sizeOf_spec]; omega)
    · exact Prod.Lex.right _ (by cases f; simp only [TypeExpr.field.sizeOf_spec, Idl.Field.mk.sizeOf_spec]; omega)
    · rcases Nat.lt_or_eq_of_le (idleCount_cons_le l busy (file, t.name)) with h | h
      · exact Prod.Lex.left _ _ h
      · rw [h]
        refine Prod.Lex.right _ ?_
        cases t
        simp only [TypeExpr.declared.sizeOf_spec, Idl.Declaration.typedef.sizeOf_spec, Idl.Typedef.mk.sizeOf_spec]
        omega
    · have hk := mem_declaredKeys_of_resolve _h
      rw [_hd] at hk
      exact Prod.Lex.left _ _ (idleCount_cons_lt hk (by simpa using _hb))

end ThriftGateway.Graph
