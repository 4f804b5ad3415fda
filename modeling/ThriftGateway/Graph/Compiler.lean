import ThriftGateway.Graph.Compile

/-!
# Compilers

A compiler keeps the set of typedefs that it is expanding beside its session: a typedef enters the set before its target
is compiled and leaves it afterwards, whatever comes of it.
-/

namespace ThriftGateway.Graph

open Idl (Declaration TypeExpr)
open Source (Path)

/-- A session, and the files and names of the typedefs that are being expanded. -/
structure Compiler where
  session : Session
  expanding : List (Path × String)

namespace Compiler

/-- A compiler that is expanding nothing. -/
def new (s : Session) : Compiler := ⟨s, []⟩

/-- Does work in the session. -/
def work {α : Type} (c : Compiler) (w : Compile α) : Except CompileError α × Compiler :=
  ((Work.run w c.session).1, { c with session := (Work.run w c.session).2 })

/-- The compiler while it is expanding one more typedef. -/
def enter (c : Compiler) (key : Path × String) : Compiler := { c with expanding := key :: c.expanding }

/-- The compiler once it is not expanding a typedef any more. -/
def leave (c : Compiler) (key : Path × String) : Compiler :=
  { c with expanding := c.expanding.filter fun k => k ≠ key }

/-- Compiles a type expression of a file.  A typedef is not expanded while it is being expanded. -/
def compile (direction : Option Direction) (c : Compiler) (file : Path) :
    TypeExpr → Except CompileError GraphType × Compiler
  | .base _ name =>
    match Scalar.ofBase? name with
    | some s => (.ok (.named (.scalar s)), c)
    | none => (.error (.expansion (.unsupported (some .base) file)), c)
  | .list _ element =>
    let (type, c) := compile direction c file element
    (type.map .list, c)
  | .map .. => (.ok (.named (.scalar (.wide .map))), c)
  | .set .. => (.ok (.named (.scalar (.wide .set))), c)
  | .field f =>
    let (type, c) := compile direction c file f.type
    (if f.requiredness = some .required then type.map .nonNull else type, c)
  | .declared (.struct s) => c.work do return .named (← compileCore direction (.struct file s))
  | .declared (.enumeration e) => c.work do return .named (← compileCore direction (.enumeration file e))
  | .declared (.typedef t) =>
    if c.expanding.contains (file, t.name) then
      (.error (.expansion (.reference (.unresolved t.name file .typedefCycle))), c)
    else
      let (type, c) := compile direction (c.enter (file, t.name)) file t.target
      (type, c.leave (file, t.name))
  | .named _ reference =>
    match _h : c.session.library.resolve reference file with
    | .error e => (.error (.expansion (.reference e)), c)
    | .ok r =>
      match _hd : r.declaration with
      | .struct s => c.work do return .named (← compileCore direction (.struct r.file s))
      | .enumeration e => c.work do return .named (← compileCore direction (.enumeration r.file e))
      | .typedef t =>
        if _hb : c.expanding.contains (r.file, t.name) then
          (.error (.expansion (.reference (.unresolved t.name r.file .typedefCycle))), c)
        else
          let (type, c) := compile direction (c.enter (r.file, t.name)) r.file t.target
          (type, c.leave (r.file, t.name))
  | .void _ => (.error (.expansion (.unsupported (some .void) file)), c)
  | .other kind => (.error (.expansion (.unsupported kind file)), c)
  termination_by t => (idleCount c.session.library c.expanding, sizeOf t)
  decreasing_by
    · exact Prod.Lex.right _ (by simp only [TypeExpr.list.sizeOf_spec]; omega)
    · exact Prod.Lex.right _ (by cases f; simp only [TypeExpr.field.sizeOf_spec, Idl.Field.mk.sizeOf_spec]; omega)
    · rcases Nat.lt_or_eq_of_le (idleCount_cons_le c.session.library c.expanding (file, t.name)) with h | h
      · exact Prod.Lex.left _ _ h
      · rw [enter, h]
        refine Prod.Lex.right _ ?_
        cases t
        simp only [TypeExpr.declared.sizeOf_spec, Declaration.typedef.sizeOf_spec, Idl.Typedef.mk.sizeOf_spec]
        omega
    · have hk := mem_declaredKeys_of_resolve _h
      rw [_hd] at hk
      exact Prod.Lex.left _ _ (idleCount_cons_lt hk (by simpa using _hb))

end Compiler

end ThriftGateway.Graph
