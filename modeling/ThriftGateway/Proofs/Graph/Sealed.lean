import ThriftGateway.Proofs.Graph.Run

/-!
# Sealed sessions

A request changes nothing in a sealed session (`work_idle`).  A type is compiled there if the declaration that it ends
at has a node, and refused if it has none (`run_compileType_of_sealed`).
-/

namespace ThriftGateway.Graph

open Idl (Field Function TypeExpr)
open Source (Path)

variable {ε α : Type}

/-- If the session was sealed, it has stayed as it was. -/
def SameIfSealed (s s' : Session) : Prop := s.isSealed = true → s' = s

instance : IsMove SameIfSealed where
  refl _ _ := rfl
  trans h h' hs := by
    obtain rfl := h hs
    exact h' hs

/-- Work that changes nothing in a sealed session, whether it succeeds or fails. -/
abbrev Idle (w : Work ε α) : Prop := Moves SameIfSealed w

/-! ### Compiling in a sealed session -/

/-- The node with a key as a type, if there is one. -/
def Session.nodeWith (s : Session) (key : NodeKey) : Except CompileError NamedType :=
  match s.find? key with
  | some id => .ok (.node id)
  | none => .error (.sealedSession key.name key.file)

/-- The scalar or node for a core, if there is one. -/
def Session.coreWith (s : Session) (direction : Option Direction) : Core → Except CompileError NamedType
  | .scalar x => .ok (.scalar x)
  | .struct file struct => s.nodeWith ⟨file.written, struct.name, direction⟩
  | .enumeration file e => if s.enumsAsInts then .ok (.scalar .int) else s.nodeWith ⟨file.written, e.name, none⟩

variable {s : Session} (hs : s.isSealed = true)

include hs

/-- A node is found or refused. -/
private theorem run_node_of_sealed (key : NodeKey) (make : Compile Node) :
    Work.run (do return NamedType.node (← nodeFor key make)) s = (s.nodeWith key, s) := by
  unfold Session.nodeWith
  cases hf : s.find? key with
  | some id =>
    rw [Work.run_bind_of_ok (run_nodeFor_of_find? hf)]
    rfl
  | none => rw [Work.run_bind, run_nodeFor_of_sealed hf hs]

private theorem run_compileCore_of_sealed (direction : Option Direction) (core : Core) :
    Work.run (compileCore direction core) s = (s.coreWith direction core, s) := by
  cases core with
  | scalar x => rfl
  | struct file struct => exact run_node_of_sealed hs _ _
  | enumeration file e =>
    rw [compileCore, Session.coreWith, Work.run_bind_of_ok (Work.run_get s)]
    by_cases hints : s.enumsAsInts = true
    · rw [if_pos hints, if_pos hints]
      rfl
    · rw [if_neg hints, if_neg hints]
      exact run_node_of_sealed hs _ _

/-- A type is compiled to what there is for the core of what it stands for. -/
theorem run_compileType_of_sealed {direction : Option Direction} {file : Path} {t : TypeExpr} {e : Expansion}
    (he : expandType s.library [] file t = .ok e) :
    Work.run (compileType direction file t) s = ((s.coreWith direction e.core).map (wrapped e.around), s) := by
  unfold compileType
  rw [Work.run_bind_of_ok (Work.run_get s), he, run_compileExpansion_ok, run_compileCore_of_sealed hs]

omit hs

/-! ### Requests to a sealed session -/

private theorem compileType_idle (direction : Option Direction) (file : Path) (t : TypeExpr) :
    Idle (compileType direction file t) :=
  Moves.compileType fun _ _ _ hs => congrArg Prod.snd (run_compileCore_of_sealed hs _ _)

theorem compileFunction_idle (file : Path) (f : Function) : Idle (compileFunction file f) :=
  .compileFunction (compileType_idle _ _ _) fun _ _ => compileType_idle _ _ _

theorem nodeFields_idle (node : Node) : Idle (nodeFields node) :=
  .nodeFields fun _ _ _ _ _ _ => compileType_idle _ _ _

theorem work_idle (q : Request) : Idle q.work := by
  cases q with
  | compile direction file t => exact .adapt _ ((compileType_idle _ _ _).bind fun _ => .pure _)
  | function file f => exact .adapt _ ((compileFunction_idle _ _).bind fun _ => .pure _)
  | fields id =>
    refine .read fun s => ?_
    split
    · exact .throw _
    · exact .adapt _ ((nodeFields_idle _).bind fun _ => .pure _)

/-- A request for a type gets what there is for the core of what the type stands for. -/
theorem run_work_of_sealed (hs : s.isSealed = true) {d : Direction} {file : Path} {t : TypeExpr} {e : Expansion}
    (he : expandType s.library [] file t = .ok e) {r : Except CompileError NamedType}
    (hr : s.coreWith (some d) e.core = r) :
    Work.run (Request.compile d file t).work s =
      ((r.map fun x => Reply.type (wrapped e.around x)).mapError Refusal.compile, s) := by
  subst hr
  unfold Request.work
  rw [Work.run_adapt, Work.run_bind, run_compileType_of_sealed hs he]
  cases s.coreWith (some d) e.core <;> rfl

end ThriftGateway.Graph
