import ThriftGateway.Proofs.Graph.Compile

/-!
# What compiling reports

Reports are only added.  What compiling a function adds tells of types that get other names than the preferred ones,
and of nothing else (`compileFunction_reports`).
-/

namespace ThriftGateway.Graph

open Idl (Field Function TypeExpr)
open Source (Path)

variable {ε δ α β : Type} {P : Notice → Prop}

/-- What has been reported has only been added to, by notices with the property. -/
def Adds (P : Notice → Prop) (s s' : Session) : Prop := ∃ added, s'.log = s.log ++ added ∧ ∀ n ∈ added, P n

private theorem adds_of_log_eq {s s' : Session} (h : s'.log = s.log) : Adds P s s' :=
    ⟨[], by rw [h, List.append_nil], nofun⟩

instance : IsMove (Adds P) where
  refl _ := adds_of_log_eq rfl
  trans := by
    rintro s s' s'' ⟨added, hlog, hadded⟩ ⟨more, hlog', hmore⟩
    refine ⟨added ++ more, by rw [hlog', hlog, List.append_assoc], fun n hn => ?_⟩
    exact (List.mem_append.1 hn).elim (hadded n) (hmore n)

/-- Whether it succeeds or fails, the work only adds to what has been reported, and only notices with the property. -/
abbrev Reports (w : Work ε α) (P : Notice → Prop) : Prop := Moves (Adds P) w

/-! ### Names that are taken -/

/-- A type gets another name than the preferred one. -/
def IsRenaming (n : Notice) : Prop := ∃ preferred given, n = .nameTaken preferred given

private theorem giveName_reports (r : NameRequest) : Reports (giveName r) IsRenaming := by
  refine Moves.bind (fun s => ?_) fun name => ?_
  · show ∃ added, (s.typeName r).2.log = s.log ++ added ∧ ∀ n ∈ added, IsRenaming n
    unfold Session.typeName Session.allocate
    dsimp only
    split
    · exact ⟨[], (List.append_nil _).symm, nofun⟩
    · exact ⟨[_], rfl, fun n hn => ⟨_, _, List.mem_singleton.1 hn⟩⟩
  · dsimp only
    split
    · exact (Moves.throw _).bind fun _ => (Moves.ofExcept _ _).bind fun _ => Moves.pure _
    · exact (Moves.ofExcept _ _).bind fun _ => Moves.pure _

private theorem makeStruct_reports (direction : Option Direction) (file : Path) (struct : Idl.Struct) :
    Reports (makeStruct direction file struct) IsRenaming := by
  unfold makeStruct
  split <;> exact (giveName_reports _).bind fun _ => Moves.pure _

private theorem makeEnumeration_reports (file : Path) (e : Idl.Enumeration) :
    Reports (makeEnumeration file e) IsRenaming :=
  (Moves.ofExcept _ _).bind fun _ => (giveName_reports _).bind fun _ => Moves.pure _

private theorem nodeFor_reports (key : NodeKey) {make : Compile Node} (hm : Reports make P) :
    Reports (nodeFor key make) P := by
  have hmade : Reports (make >>= fun node => modifyGet fun s : Session =>
      (s.nodes.length, { s with nodes := s.nodes ++ [(key, node)] })) P :=
    hm.bind fun _ _ => adds_of_log_eq rfl
  refine Moves.read fun s => ?_
  split
  · exact Moves.pure _
  · split
    · exact (Moves.throw _).bind fun _ => hmade
    · exact hmade

/-! ### Compiling -/

private theorem compileCore_reports (direction : Option Direction) (core : Core) :
    Reports (compileCore direction core) IsRenaming := by
  cases core with
  | scalar s => exact Moves.pure _
  | struct file struct => exact (nodeFor_reports _ (makeStruct_reports _ _ _)).bind fun _ => Moves.pure _
  | enumeration file e =>
    refine Moves.read fun s => ?_
    split
    · exact Moves.pure _
    · exact (nodeFor_reports _ (makeEnumeration_reports _ _)).bind fun _ => Moves.pure _

private theorem compileType_reports (direction : Option Direction) (file : Path) (t : TypeExpr) :
    Reports (compileType direction file t) IsRenaming :=
  Moves.read fun _ => (Moves.ofExcept _ _).bind fun _ => (compileCore_reports _ _).bind fun _ => Moves.pure _

private theorem compileInputFields_reports (file : Path) (fs : List Field) :
    Reports (compileInputFields file fs) IsRenaming := by
  induction fs with
  | nil => exact Moves.pure _
  | cons f fs ih =>
    have hf : Reports (compileInputField file f) IsRenaming :=
      (compileType_reports _ _ _).bind fun _ => (Moves.ofExcept _ _).bind fun _ => Moves.pure _
    exact hf.bind fun _ => ih.bind fun _ => Moves.pure _

theorem compileFunction_reports (file : Path) (f : Function) : Reports (compileFunction file f) IsRenaming :=
  (compileType_reports _ _ _).bind fun _ => (compileInputFields_reports _ _).bind fun _ =>
    (Moves.ofExcept _ _).bind fun _ => Moves.pure _

end ThriftGateway.Graph
