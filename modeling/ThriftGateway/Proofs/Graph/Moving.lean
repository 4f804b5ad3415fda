import ThriftGateway.Proofs.Graph.Compile

/-!
# Work that moves a session as its parts do

Compiling functions and reading fields is compiling types, one after another, and what compiling a type does to a
session is at most to make a node (`Moves.nodeFor`).  So a relation of sessions to later ones that holds across
compiling each of the types holds across the whole (`Moves.compileFunction`, `Moves.nodeFields`), and one that looks at
neither names, reports nor nodes holds across compiling any type (`Moves.compileType_of_blind`).
-/

namespace ThriftGateway.Graph

open Idl (Field Function TypeExpr)
open Source (Path)

/-- The struct that a node is a form of, with the direction that it is seen from and its file. -/
def Node.form? : Node → Option (Direction × Path × Idl.Struct)
  | .input _ file s => some (.input, file, s)
  | .output _ file s => some (.output, file, s)
  | .enumeration .. | .foreign => none

namespace Moves

variable {R : Session → Session → Prop} [IsMove R] {file : Path}

/-! ### Types -/

/-- Compiling a type does to the session what compiling its core does. -/
theorem compileType {direction : Option Direction} {t : TypeExpr}
    (h : ∀ (s : Session) e, expandType s.library [] file t = .ok e →
    R s (Work.run (compileCore direction e.core) s).2) :
    Moves R (Graph.compileType direction file t) := by
  intro s
  show R s (Work.run (compileExpansion direction (expandType s.library [] file t)) s).2
  cases he : expandType s.library [] file t with
  | error e => exact IsMove.refl s
  | ok e =>
    rw [run_compileExpansion_ok]
    exact h s e he

/-- Asking for a node changes nothing, or names and reports, or it makes the node as well. -/
theorem nodeFor {key : NodeKey} {make : Compile Node} {P : Node → Prop} (hm : Names Node.name make)
    (hmade : Gives make P) (hkept : ∀ (s : Session) names log, R s { s with names, log })
    (hadded : ∀ (s : Session) names log node, s.find? key = none → P node →
      R s { s with names, log, nodes := s.nodes ++ [(key, node)] }) : Moves R (Graph.nodeFor key make) := by
  intro s
  cases hf : s.find? key with
  | some id =>
    rw [run_nodeFor_of_find? hf]
    exact IsMove.refl s
  | none =>
    by_cases hsealed : s.isSealed = true
    · rw [run_nodeFor_of_sealed hf hsealed]
      exact IsMove.refl s
    · have hsealed : s.isSealed = false := by simpa using hsealed
      obtain ⟨names, log, hsame⟩ := hm.same s
      cases hr : (Work.run make s).1 with
      | error e =>
        rw [run_nodeFor_of_error hf hsealed (Prod.ext hr hsame)]
        exact hkept s names log
      | ok node =>
        have hrun : Work.run make s = (.ok node, { s with names, log }) := Prod.ext hr hsame
        rw [run_nodeFor_of_make hf hsealed hrun]
        exact hadded s names log node hf (hmade _ _ _ hrun)

theorem compileType_of_blind (hR : ∀ (s : Session) names log nodes, R s { s with names, log, nodes })
    (direction : Option Direction) (file : Path) (t : TypeExpr) : Moves R (Graph.compileType direction file t) := by
  have hnode : ∀ {key make}, Names Node.name make → Moves R (Graph.nodeFor key make) := fun hm =>
    nodeFor (P := fun _ => True) hm (fun _ _ _ _ => trivial) (fun s names log => hR s names log s.nodes)
      fun s names log _ _ _ => hR s names log _
  refine compileType fun s e _ => ?_
  have hcore : Moves R (compileCore direction e.core) := by
    cases e.core with
    | scalar x => exact .pure _
    | struct file struct => exact (hnode (makeStruct_names _ _ _)).bind fun _ => .pure _
    | enumeration file e =>
      refine .read fun s => ?_
      split
      · exact .pure _
      · exact (hnode (makeEnumeration_names _ _)).bind fun _ => .pure _
  exact hcore s

/-! ### Fields and functions -/

theorem compileInputFields {fs : List Field} (h : ∀ f ∈ fs, Moves R (compileField (some .input) file f)) :
    Moves R (Graph.compileInputFields file fs) := by
  induction fs with
  | nil => exact .pure _
  | cons f fs ih =>
    rw [List.forall_mem_cons] at h
    have hf : Moves R (compileInputField file f) := h.1.bind fun _ => .bind (.ofExcept _ _) fun _ => .pure _
    exact hf.bind fun _ => (ih h.2).bind fun _ => .pure _

theorem compileOutputFields {fs : List Field} (h : ∀ f ∈ fs, Moves R (compileField (some .output) file f)) :
    Moves R (Graph.compileOutputFields file fs) := by
  induction fs with
  | nil => exact .pure _
  | cons f fs ih =>
    rw [List.forall_mem_cons] at h
    have hf : Moves R (compileOutputField file f) := h.1.bind fun _ => .pure _
    exact hf.bind fun _ => (ih h.2).bind fun _ => .pure _

theorem compileFunction {f : Function} (hresult : Moves R (Graph.compileType (some .output) file f.result))
    (harguments : ∀ a ∈ f.arguments, Moves R (compileField (some .input) file a)) :
    Moves R (Graph.compileFunction file f) :=
  hresult.bind fun _ => (compileInputFields harguments).bind fun _ => .bind (.ofExcept _ _) fun _ => .pure _

/-- Across reading the fields of a node holds what holds across compiling each field in the direction of the node. -/
theorem nodeFields {node : Node} (h : ∀ direction file struct, node.form? = some (direction, file, struct) →
    ∀ f ∈ struct.fields, Moves R (compileField (some direction) file f)) : Moves R (Graph.nodeFields node) := by
  cases node with
  | input name file struct =>
    refine .bind (.adapt _ ?_) fun _ => .bind (.ofExcept _ _) fun _ => .pure _
    unfold structInputFields
    split
    · exact .pure _
    · exact (compileInputFields (h _ _ _ rfl)).bind fun _ => .pure _
  | output name file struct =>
    refine .bind (.adapt _ ?_) fun _ => .bind (.ofExcept _ _) fun _ => .pure _
    unfold structOutputFields
    split
    · exact .pure _
    · exact (compileOutputFields (h _ _ _ rfl)).bind fun _ => .pure _
  | enumeration name members description => exact .bind (.ofExcept _ _) fun _ => .pure _
  | foreign => exact .pure _

end Moves

end ThriftGateway.Graph
