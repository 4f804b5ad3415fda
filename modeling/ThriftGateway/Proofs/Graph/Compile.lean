import ThriftGateway.Graph.Compile
import ThriftGateway.Proofs.Graph.Expansion
import ThriftGateway.Proofs.Graph.Work

/-!
# Compiling is steady

Compiling types, fields and functions and telling the fields of a node are steady (`compileType_steady`,
`compileFunction_steady`, `nodeFields_steady`).  A type that ends at a struct or an enumeration has inside all lists the
node of that declaration (`find?_of_compileType`).
-/

namespace ThriftGateway.Graph

open Idl (Field Function TypeExpr)
open Source (Library Path Resolved)

/-! ### Types -/

theorem makeEnumeration_names (file : Path) (e : Idl.Enumeration) : Names Node.name (makeEnumeration file e) := by
  refine Names.after (fun members => ?_) _ _
  exact (giveName_names _).map (fun name => Node.enumeration name (collect EnumMember.name members) e.description)
    fun _ => rfl

theorem makeStruct_names (direction : Option Direction) (file : Path) (struct : Idl.Struct) :
    Names Node.name (makeStruct direction file struct) := by
  unfold makeStruct
  split
  · exact (giveName_names _).map (fun name => Node.input name file struct) fun _ => rfl
  · exact (giveName_names _).map (fun name => Node.output name file struct) fun _ => rfl

private theorem compileCore_steady (direction : Option Direction) (core : Core) :
    Steady (compileCore direction core) := by
  cases core with
  | scalar s => exact Steady.pure _
  | struct file struct =>
    exact (nodeFor_steady _ (makeStruct_names direction file struct)).bind fun id => Steady.pure _
  | enumeration file e =>
    refine Steady.read (fun s => ?_) fun s s' hs a x y h => ?_
    · split
      · exact Steady.pure _
      · exact (nodeFor_steady _ (makeEnumeration_names file e)).bind fun id => Steady.pure _
    · rw [hs.enumsAsInts]
      exact h

private theorem compileExpansion_steady (direction : Option Direction) (e : Except ExpansionError Expansion) :
    Steady (compileExpansion direction e) :=
  (Steady.ofExcept _ e).bind fun e => (compileCore_steady direction e.core).bind fun _ => Steady.pure _

/-- A type is compiled by what it stands for, which stays in later sessions. -/
theorem compileType_steady (direction : Option Direction) (file : Path) (t : TypeExpr) :
    Steady (compileType direction file t) := by
  refine Steady.read (fun s => compileExpansion_steady direction _) fun s s' hs a x y h => ?_
  cases he : expandType s.library [] file t with
  | error e =>
    rw [he] at h
    cases h
  | ok e =>
    rw [expandType_of_extends hs.library he]
    rw [he] at h
    exact h

theorem run_compileExpansion_error {direction : Option Direction} {e : ExpansionError} (s : Session) :
    Work.run (compileExpansion direction (.error e)) s = (.error (.expansion e), s) := rfl

theorem run_compileExpansion_ok {direction : Option Direction} {e : Expansion} (s : Session) :
    Work.run (compileExpansion direction (.ok e)) s =
      ((Work.run (compileCore direction e.core) s).1.map (wrapped e.around),
        (Work.run (compileCore direction e.core) s).2) := by
  unfold compileExpansion
  rw [Work.run_bind_of_ok (Work.run_ofExcept_ok s), Work.run_bind_pure]

/-- A type that stands for a scalar leaves the session as it is. -/
theorem run_compileType_of_scalar {direction : Option Direction} {file : Path} {t : TypeExpr} {s : Session}
    {around : List Wrapping} {x : Scalar} (h : expandType s.library [] file t = .ok ⟨around, .scalar x⟩) :
    Work.run (compileType direction file t) s = (.ok (wrapped around (.scalar x)), s) := by
  unfold compileType compileExpansion
  rw [Work.run_bind_of_ok (Work.run_get s), h]
  rfl

/-- A type that stands for a struct has inside the node of the struct. -/
theorem run_compileType_of_nodeFor {direction : Option Direction} {file f : Path} {t : TypeExpr} {s s' : Session}
    {around : List Wrapping} {struct : Idl.Struct} (h : expandType s.library [] file t = .ok ⟨around, .struct f struct⟩)
    {id : Nat} (hid : Work.run (nodeFor ⟨f.written, struct.name, direction⟩ (makeStruct direction f struct)) s =
      (.ok id, s')) :
    Work.run (compileType direction file t) s = (.ok (wrapped around (.node id)), s') := by
  unfold compileType
  rw [Work.run_bind_of_ok (Work.run_get s), h, run_compileExpansion_ok, compileCore, Work.run_bind_pure, hid]
  rfl

/-- A type that stands for a struct with a node leaves the session as it is. -/
theorem run_compileType_of_find? {direction : Option Direction} {file f : Path} {t : TypeExpr} {s : Session}
    {around : List Wrapping} {struct : Idl.Struct} (h : expandType s.library [] file t = .ok ⟨around, .struct f struct⟩)
    {id : Nat} (hid : s.find? ⟨f.written, struct.name, direction⟩ = some id) :
    Work.run (compileType direction file t) s = (.ok (wrapped around (.node id)), s) :=
  run_compileType_of_nodeFor h (run_nodeFor_of_find? hid)

/-- A type that stands for nothing leaves the session as it is. -/
theorem run_compileType_of_error {direction : Option Direction} {file : Path} {t : TypeExpr} {s : Session}
    {e : ExpansionError} (h : expandType s.library [] file t = .error e) :
    Work.run (compileType direction file t) s = (.error (.expansion e), s) := by
  unfold compileType
  rw [Work.run_bind_of_ok (Work.run_get s), h]
  rfl

/-! ### Fields and functions -/

private theorem compileInputField_steady (file : Path) (f : Field) : Steady (compileInputField file f) :=
  (compileType_steady _ _ _).bind fun _ => (Steady.ofExcept _ _).bind fun _ => Steady.pure _

private theorem compileOutputField_steady (file : Path) (f : Field) : Steady (compileOutputField file f) :=
  (compileType_steady _ _ _).bind fun _ => Steady.pure _

theorem compileInputFields_steady (file : Path) (fs : List Field) : Steady (compileInputFields file fs) := by
  induction fs with
  | nil => exact Steady.pure _
  | cons f fs ih => exact (compileInputField_steady file f).bind fun _ => ih.bind fun _ => Steady.pure _

private theorem compileOutputFields_steady (file : Path) (fs : List Field) : Steady (compileOutputFields file fs) := by
  induction fs with
  | nil => exact Steady.pure _
  | cons f fs ih => exact (compileOutputField_steady file f).bind fun _ => ih.bind fun _ => Steady.pure _

theorem compileFunction_steady (file : Path) (f : Function) : Steady (compileFunction file f) :=
  (compileType_steady _ _ _).bind fun _ => (compileInputFields_steady file _).bind fun _ =>
    (Steady.ofExcept _ _).bind fun _ => Steady.pure _

/-- A function that takes nothing and gives a scalar leaves the session as it is. -/
theorem run_compileFunction_of_scalar {file : Path} {f : Function} {s : Session} {around : List Wrapping} {x : Scalar}
    (hresult : expandType s.library [] file f.result = .ok ⟨around, .scalar x⟩) (harguments : f.arguments = []) :
    Work.run (compileFunction file f) s = (.ok ⟨f.name, wrapped around (.scalar x), [], f.description⟩, s) := by
  unfold compileFunction
  rw [Work.run_bind_of_ok (run_compileType_of_scalar hresult), harguments]
  rfl

private theorem structInputFields_steady (file : Path) (s : Idl.Struct) : Steady (structInputFields file s) := by
  unfold structInputFields
  split
  · exact Steady.pure _
  · exact (compileInputFields_steady file _).bind fun _ => Steady.pure _

private theorem structOutputFields_steady (file : Path) (s : Idl.Struct) : Steady (structOutputFields file s) := by
  unfold structOutputFields
  split
  · exact Steady.pure _
  · exact (compileOutputFields_steady file _).bind fun _ => Steady.pure _

theorem nodeFields_steady (n : Node) : Steady (nodeFields n) := by
  cases n with
  | input name file s =>
    exact (Steady.adapt _ (structInputFields_steady file s)).bind fun _ =>
      (Steady.ofExcept _ _).bind fun _ => Steady.pure _
  | output name file s =>
    exact (Steady.adapt _ (structOutputFields_steady file s)).bind fun _ =>
      (Steady.ofExcept _ _).bind fun _ => Steady.pure _
  | enumeration name members description => exact (Steady.ofExcept _ _).bind fun _ => Steady.pure _
  | foreign => exact Steady.pure _

/-! ### The node inside a type -/

/-- What the node of a declaration is known by, seen from a direction: an enumeration looks the same from both. -/
def keyOf (direction : Direction) (r : Resolved) : NodeKey :=
  match r.declaration with
  | .enumeration e => ⟨r.file.written, e.name, none⟩
  | d => ⟨r.file.written, d.name, some direction⟩

private theorem keyOf_file (direction : Direction) (r : Resolved) : (keyOf direction r).file = r.file.written := by
  unfold keyOf
  split <;> rfl

private theorem keyOf_name (direction : Direction) (r : Resolved) : (keyOf direction r).name = r.declaration.name := by
  unfold keyOf
  split
  · rename_i e he
    rw [he]
    rfl
  · rfl

/-- Declarations that types end at have the same node exactly if they are the same, seen from the same direction if
they are structs. -/
theorem keyOf_eq_iff {l : Library} {file file' : Path} {t t' : TypeExpr} {r r' : Resolved} (hr : Ends l file t r)
    (hr' : Ends l file' t' r') {direction direction' : Direction} :
    keyOf direction r = keyOf direction' r' ↔
      r.file = r'.file ∧ r.declaration.name = r'.declaration.name ∧
        ((∃ s, r.declaration = .struct s) → direction = direction') := by
  constructor
  · intro h
    have hfile : r.file.written = r'.file.written := by
      rw [← keyOf_file direction r, ← keyOf_file direction' r', h]
    have hname : r.declaration.name = r'.declaration.name := by
      rw [← keyOf_name direction r, ← keyOf_name direction' r', h]
    refine ⟨congrArg (fun w => Source.Path.mk w.components) hfile, hname, ?_⟩
    rintro ⟨s, hs⟩
    obtain ⟨f, d⟩ := r
    obtain rfl : d = .struct s := hs
    have hdirection : (keyOf direction' r').direction = some direction := by rw [← h]; rfl
    unfold keyOf at hdirection
    split at hdirection
    · cases hdirection
    · exact (Option.some.inj hdirection).symm
  · rintro ⟨hf, hn, hd⟩
    obtain rfl := hr.unique hr' hf hn
    obtain ⟨core, hc⟩ := hr.exists_core
    obtain ⟨f, d⟩ := r
    cases d with
    | struct s => rw [hd ⟨s, rfl⟩]
    | enumeration e => rfl
    | typedef d => cases hc

@[simp] theorem innermost_wrapped (ws : List Wrapping) (t : NamedType) : (wrapped ws t).innermost = t := by
  induction ws with
  | nil => rfl
  | cons w ws ih => cases w <;> exact ih

/-- The core of a declaration is compiled to its node. -/
private theorem find?_of_compileCore {direction : Direction} {r : Resolved} {core : Core} (hc : coreOf r = some core)
    {s s' : Session} (hs : s.enumsAsInts = false) {t : NamedType}
    (h : Work.run (compileCore (some direction) core) s = (.ok t, s')) :
    ∃ id, t = .node id ∧ s'.find? (keyOf direction r) = some id := by
  obtain ⟨file, d⟩ := r
  cases d with
  | struct struct =>
    cases hc
    obtain ⟨id, s₁, hid, ht⟩ := Work.run_bind_eq_ok.1 h
    cases ht
    exact ⟨id, rfl, find?_of_nodeFor (makeStruct_names _ _ _) hid⟩
  | enumeration e =>
    cases hc
    unfold compileCore at h
    rw [Work.run_bind_of_ok (Work.run_get s), if_neg (by simp [hs])] at h
    obtain ⟨id, s₁, hid, ht⟩ := Work.run_bind_eq_ok.1 h
    cases ht
    exact ⟨id, rfl, find?_of_nodeFor (makeEnumeration_names _ _) hid⟩
  | typedef d => cases hc

/-- A type that ends at a declaration has the node of the declaration inside. -/
theorem find?_of_compileType {direction : Direction} {file : Path} {t : TypeExpr} {r : Resolved} {s s' : Session}
    (hr : Ends s.library file t r) (hs : s.enumsAsInts = false) {g : GraphType}
    (h : Work.run (compileType (some direction) file t) s = (.ok g, s')) :
    ∃ id, g.innermost = .node id ∧ s'.find? (keyOf direction r) = some id := by
  unfold compileType compileExpansion at h
  rw [Work.run_bind_of_ok (Work.run_get s)] at h
  obtain ⟨e, s₁, he, h⟩ := Work.run_bind_eq_ok.1 h
  cases hx : expandType s.library [] file t with
  | error x =>
    rw [hx] at he
    cases he
  | ok x =>
    rw [hx] at he
    cases he
    obtain ⟨n, s₂, hn, hg⟩ := Work.run_bind_eq_ok.1 h
    cases hg
    rw [innermost_wrapped]
    exact find?_of_compileCore (core_of_ends hr hx) hs hn

end ThriftGateway.Graph
