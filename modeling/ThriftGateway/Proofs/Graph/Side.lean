import ThriftGateway.Proofs.Graph.Run
import ThriftGateway.Proofs.Schema.Carried

/-!
# The sides of types

A struct has two nodes, an input object for arguments and an object for results, and an enumeration and a scalar are on
both sides.  Compiling keeps to one side: what is compiled for a direction is on that side (`compileType_leaves`), and
so are the fields of a node on that side, whenever they are read (`nodeFields_leaves`).  The direction of a node is that
of its key (`Session.Sided`), which is what compiling preserves.
-/

namespace ThriftGateway.Graph

open Idl (Field Function TypeExpr)
open Source (FileTree Path)

/-- A node that can stand where a direction asks for a type: of its own side, or an enumeration. -/
def Node.IsOn (d : Direction) : Node → Prop
  | .input .. => d = .input
  | .output .. => d = .output
  | .enumeration .. => True
  | .foreign => False

namespace Session

/-- A type that can stand where a direction asks for one: a scalar, an enumeration, or the form of a struct for that
direction. -/
def IsOn (s : Session) (d : Direction) : NamedType → Prop
  | .scalar _ => True
  | .node id => ∃ node, s.node? id = some node ∧ node.IsOn d

/-- A node is what its key says: the form of a struct for the direction, or an enumeration if there is none. -/
def Matches (entry : NodeKey × Node) : Prop :=
  match entry.1.direction with
  | some d => entry.2.IsOn d
  | none => ∃ name members description, entry.2 = .enumeration name members description

/-- All nodes are what their keys say. -/
def Sided (s : Session) : Prop := ∀ entry ∈ s.nodes, Matches entry

theorem IsOn.of_extends {s s' : Session} (h : s.Extends s') {d : Direction} {t : NamedType} (ht : s.IsOn d t) :
    s'.IsOn d t := by
  cases t with
  | scalar x => trivial
  | node id =>
    obtain ⟨node, hn, hd⟩ := ht
    exact ⟨node, h.node? hn, hd⟩

/-- A type that was known before is on the sides it was on. -/
theorem isOn_iff_of_extends {s s' : Session} (h : s.Extends s') {d d' : Direction} {t : NamedType} (ht : s.IsOn d t) :
    s'.IsOn d' t ↔ s.IsOn d' t := by
  refine ⟨fun ht' => ?_, IsOn.of_extends h⟩
  cases t with
  | scalar x => trivial
  | node id =>
    obtain ⟨node, hn, -⟩ := ht
    obtain ⟨node', hn', hd⟩ := ht'
    rw [h.node? hn] at hn'
    cases hn'
    exact ⟨node, hn, hd⟩

theorem fresh_sided (enumsAsInts : Bool) (naming : TypeNaming) : (fresh enumsAsInts naming).Sided := by
  intro entry h
  cases h

end Session

/-! ### What work leaves behind -/

variable {ε δ α β : Type}

/-- What holds of a result in a session goes on to hold in later ones. -/
def Stable (P : Session → α → Prop) : Prop := ∀ s s' : Session, s.Extends s' → ∀ a, P s a → P s' a

/-- The work only adds to a sided session and leaves it sided, whether it succeeds or not, and if it succeeds, what it
gives has the property in the session that it leaves. -/
def Leaves (w : Work ε α) (P : Session → α → Prop) : Prop :=
  ∀ s : Session, s.Sided → s.Extends (Work.run w s).2 ∧ (Work.run w s).2.Sided ∧
    ∀ a, (Work.run w s).1 = .ok a → P (Work.run w s).2 a

namespace Leaves

variable {P : Session → α → Prop} {Q : Session → β → Prop}

theorem pure {a : α} (h : ∀ s, P s a) : Leaves (Pure.pure a : Work ε α) P := by
  intro s hs
  exact ⟨Session.Extends.refl s, hs, fun b hb => by cases hb; exact h s⟩

theorem throw (e : ε) : Leaves (MonadExcept.throw e : Work ε α) P := by
  intro s hs
  exact ⟨Session.Extends.refl s, hs, fun b hb => by cases hb⟩

/-- What would come after a failure does not matter. -/
theorem throw_bind (e : ε) (k : α → Work ε β) : Leaves ((MonadExcept.throw e : Work ε α) >>= k) Q := by
  intro s hs
  exact ⟨Session.Extends.refl s, hs, fun b hb => by cases hb⟩

theorem ofExcept {wrap : δ → ε} {r : Except δ α} (h : ∀ s a, P s a) : Leaves (Work.ofExcept wrap r) P := by
  cases r with
  | ok a => exact pure fun s => h s a
  | error e => exact throw (wrap e)

theorem adapt (f : δ → ε) {w : Work δ α} (hw : Leaves w P) : Leaves (ExceptT.adapt f w : Work ε α) P := by
  intro s hs
  obtain ⟨hgrows, hsided, hP⟩ := hw s hs
  refine ⟨hgrows, hsided, fun a ha => hP a ?_⟩
  exact congrArg Prod.fst (Work.run_adapt_eq_ok.1 (Prod.ext ha rfl))

/-- What the first step gives still has its property when the second step is done. -/
theorem bind {w : Work ε α} {k : α → Work ε β} (hP : Stable P) (hw : Leaves w P)
    (hk : ∀ a, Leaves (k a) fun s b => P s a → Q s b) : Leaves (w >>= k) Q := by
  intro s hs
  obtain ⟨hgrows, hsided, hresult⟩ := hw s hs
  rw [Work.run_bind]
  split
  · rename_i a s' h
    rw [h] at hgrows hsided hresult
    obtain ⟨hgrows', hsided', hresult'⟩ := hk a s' hsided
    exact ⟨hgrows.trans hgrows', hsided', fun b hb => hresult' b hb (hP _ _ hgrows' a (hresult a rfl))⟩
  · rename_i e s' h
    rw [h] at hgrows hsided
    exact ⟨hgrows, hsided, fun b hb => by cases hb⟩

/-- Work whose first result does not matter. -/
theorem after {w : Work ε α} {k : α → Work ε β} (hw : Leaves w fun _ _ => True) (hk : ∀ a, Leaves (k a) Q) :
    Leaves (w >>= k) Q :=
  bind (fun _ _ _ _ _ => trivial) hw fun a s hs => by
    obtain ⟨hgrows, hsided, hresult⟩ := hk a s hs
    exact ⟨hgrows, hsided, fun b hb _ => hresult b hb⟩

theorem mono {w : Work ε α} {P' : Session → α → Prop} (hw : Leaves w P) (h : ∀ s a, P s a → P' s a) : Leaves w P' := by
  intro s hs
  obtain ⟨hgrows, hsided, hresult⟩ := hw s hs
  exact ⟨hgrows, hsided, fun a ha => h _ a (hresult a ha)⟩

/-- Work that looks at the session, which then is an earlier one. -/
theorem look {k : Session → Work ε β} (hk : ∀ s₀, Leaves (k s₀) fun s b => s₀.Extends s → Q s b) :
    Leaves (get >>= k) Q := by
  refine bind (P := fun (s a : Session) => a.Extends s) (fun _ _ h _ ha => ha.trans h) (fun s hs => ?_) hk
  exact ⟨Session.Extends.refl s, hs, fun a ha => by cases ha; exact Session.Extends.refl s⟩

/-- Work for which it does not matter what the session was. -/
theorem read {k : Session → Work ε β} (hk : ∀ s, Leaves (k s) Q) : Leaves (get >>= k) Q :=
  look fun s => (hk s).mono fun _ _ h _ => h

/-- What holds of every result may be added. -/
theorem and {w : Work ε α} {R : α → Prop} (hw : Leaves w P) (h : Gives w R) : Leaves w fun s a => P s a ∧ R a := by
  intro s hs
  obtain ⟨hgrows, hsided, hresult⟩ := hw s hs
  exact ⟨hgrows, hsided, fun a ha => ⟨hresult a ha, h s _ a (Prod.ext ha rfl)⟩⟩

/-- Work that only reports something. -/
theorem report {P : Session → Unit → Prop} (n : Notice) (h : ∀ s, P s ()) :
    Leaves (modify fun s => s.report n : Work ε Unit) P := by
  intro s hs
  show s.Extends (s.report n) ∧ (s.report n).Sided ∧ _
  exact ⟨⟨rfl, Source.Library.Extends.refl _, [], by simp [Session.report]⟩, hs, fun _ _ => h _⟩

theorem close {P : Session → Unit → Prop} (h : ∀ s, P s ()) : Leaves (modify Session.close : Work ε Unit) P := by
  intro s hs
  exact ⟨s.extends_close, hs, fun _ _ => h _⟩

end Leaves

/-! ### Compiling keeps to one side -/

/-- A node that is asked for is there under its key, and is what the key says. -/
private theorem nodeFor_leaves {key : NodeKey} {make : Compile Node} (hm : Names Node.name make)
    (hkey : Gives make fun node => Session.Matches (key, node)) :
    Leaves (nodeFor key make) fun s id => ∃ node, s.nodes[id]? = some (key, node) ∧ Session.Matches (key, node) := by
  intro s hs
  refine ⟨(nodeFor_steady key hm).grows s, ?_⟩
  cases hf : s.find? key with
  | some id =>
    rw [run_nodeFor_of_find? hf]
    refine ⟨hs, fun id' h => ?_⟩
    cases h
    obtain ⟨hid, heq, -⟩ := List.findIdx?_eq_some_iff_getElem.1 hf
    have hentry : s.nodes[id]? = some (key, s.nodes[id].2) := by
      rw [List.getElem?_eq_getElem hid, ← of_decide_eq_true heq]
    exact ⟨s.nodes[id].2, hentry, hs _ (List.mem_of_getElem? hentry)⟩
  | none =>
    by_cases hsealed : s.isSealed = true
    · rw [run_nodeFor_of_sealed hf hsealed]
      exact ⟨hs, fun id h => by cases h⟩
    · have hsealed : s.isSealed = false := by simpa using hsealed
      obtain ⟨names, log, hsame⟩ := hm.same s
      cases hr : (Work.run make s).1 with
      | error e =>
        rw [run_nodeFor_of_error hf hsealed (Prod.ext hr hsame)]
        exact ⟨hs, fun id h => by cases h⟩
      | ok node =>
        have hrun : Work.run make s = (.ok node, { s with names, log }) := Prod.ext hr hsame
        have hmatches := hkey _ _ _ hrun
        rw [run_nodeFor_of_make hf hsealed hrun]
        refine ⟨fun entry h => ?_, fun id h => ?_⟩
        · rcases List.mem_append.1 h with h | h
          · exact hs entry h
          · rw [List.mem_singleton.1 h]
            exact hmatches
        · cases h
          exact ⟨node, by simp, hmatches⟩

private theorem isOn_stable (d : Direction) : Stable fun s t => s.IsOn d t := fun _ _ h _ ht => ht.of_extends h

/-- A node that is there under a key, and is what the key says. -/
private theorem entry_stable (key : NodeKey) :
    Stable fun s (id : Nat) => ∃ node, s.nodes[id]? = some (key, node) ∧ Session.Matches (key, node) := by
  rintro s s' h id ⟨node, hentry, hmatches⟩
  obtain ⟨more, hmore⟩ := h.nodes
  refine ⟨node, ?_, hmatches⟩
  rw [hmore, List.getElem?_append_left (List.getElem?_eq_some_iff.1 hentry).1]
  exact hentry

/-- A node that is asked for stands for its number. -/
private theorem node_leaves {key : NodeKey} {make : Compile Node} (hm : Names Node.name make)
    (hkey : Gives make fun node => Session.Matches (key, node)) {d : Direction}
    (hd : ∀ node, Session.Matches (key, node) → node.IsOn d) :
    Leaves (do return NamedType.node (← nodeFor key make)) fun s t => s.IsOn d t := by
  refine Leaves.bind (entry_stable key) (nodeFor_leaves hm hkey) fun id => Leaves.pure ?_
  rintro s ⟨node, hentry, hmatches⟩
  exact ⟨node, by simp [Session.node?, hentry], hd node hmatches⟩

private theorem compileCore_leaves (d : Direction) (core : Core) :
    Leaves (compileCore (some d) core) fun s t => s.IsOn d t := by
  cases core with
  | scalar x => exact Leaves.pure fun s => trivial
  | struct file struct =>
    refine node_leaves (makeStruct_names _ _ _) ?_ fun node h => h
    cases d with
    | input => exact Gives.after fun name => Gives.pure rfl
    | output => exact Gives.after fun name => Gives.pure rfl
  | enumeration file e =>
    refine Leaves.read fun s => ?_
    split
    · exact Leaves.pure fun s => trivial
    · refine node_leaves (makeEnumeration_names _ _) ?_ fun node h => ?_
      · exact Gives.after fun members => Gives.after fun name => Gives.pure ⟨name, _, _, rfl⟩
      · obtain ⟨name, members, description, rfl⟩ := h
        trivial

private theorem compileExpansion_leaves (d : Direction) (e : Except ExpansionError Expansion) :
    Leaves (compileExpansion (some d) e) fun s g => s.IsOn d g.innermost := by
  unfold compileExpansion
  refine Leaves.after (Leaves.ofExcept fun s a => trivial) fun e => ?_
  refine Leaves.bind (isOn_stable d) (compileCore_leaves d e.core) fun t => Leaves.pure ?_
  intro s ht
  rw [innermost_wrapped]
  exact ht

/-- A type that is compiled for a direction is on that side. -/
theorem compileType_leaves (d : Direction) (file : Path) (t : TypeExpr) :
    Leaves (compileType (some d) file t) fun s g => s.IsOn d g.innermost :=
  Leaves.read fun _ => compileExpansion_leaves d _

theorem innermost_stable (d : Direction) (typeOf : α → GraphType) :
    Stable fun s x => s.IsOn d (typeOf x).innermost := fun _ _ h _ ht => ht.of_extends h

/-- The types of the items are on a side. -/
def Session.AllOn (s : Session) (d : Direction) (typeOf : α → GraphType) (items : List α) : Prop :=
  ∀ x ∈ items, s.IsOn d (typeOf x).innermost

theorem Session.allOn_nil (s : Session) (d : Direction) (typeOf : α → GraphType) : s.AllOn d typeOf [] :=
  fun _ hx => (List.not_mem_nil hx).elim

private theorem allOn_stable (d : Direction) (typeOf : α → GraphType) : Stable fun s xs => s.AllOn d typeOf xs :=
  fun _ _ h _ hxs x hx => (hxs x hx).of_extends h

private theorem Session.AllOn.cons {s : Session} {d : Direction} {typeOf : α → GraphType} {x : α} {xs : List α}
    (hx : s.IsOn d (typeOf x).innermost) (hxs : s.AllOn d typeOf xs) : s.AllOn d typeOf (x :: xs) := by
  intro y hy
  rcases List.mem_cons.1 hy with rfl | hy
  · exact hx
  · exact hxs y hy

private theorem Session.AllOn.collect {s : Session} {d : Direction} {typeOf : α → GraphType} {xs : List α}
    (h : s.AllOn d typeOf xs) (key : α → String) : s.AllOn d typeOf (collect key xs) :=
  fun x hx => h x (mem_of_mem_collect hx)

private theorem compileInputField_leaves (file : Path) (f : Field) :
    Leaves (compileInputField file f) fun s x => s.IsOn .input x.type.innermost := by
  unfold compileInputField compileField
  refine Leaves.bind (innermost_stable .input id) (compileType_leaves .input file _) fun g => ?_
  exact Leaves.after (Leaves.ofExcept fun s a => trivial) fun default => Leaves.pure fun s hg => hg

private theorem compileOutputField_leaves (file : Path) (f : Field) :
    Leaves (compileOutputField file f) fun s x => s.IsOn .output x.type.innermost := by
  unfold compileOutputField compileField
  exact Leaves.bind (innermost_stable .output id) (compileType_leaves .output file _)
    fun g => Leaves.pure fun s hg => hg

private theorem compileInputFields_leaves (file : Path) (fs : List Field) :
    Leaves (compileInputFields file fs) fun s xs => s.AllOn .input InputField.type xs := by
  induction fs with
  | nil => exact Leaves.pure fun s x hx => by cases hx
  | cons f fs ih =>
    unfold compileInputFields
    refine Leaves.bind (innermost_stable .input InputField.type) (compileInputField_leaves file f) fun x => ?_
    exact Leaves.bind (allOn_stable _ _) ih fun xs => Leaves.pure fun s hxs hx => hxs.cons hx

private theorem compileOutputFields_leaves (file : Path) (fs : List Field) :
    Leaves (compileOutputFields file fs) fun s xs => s.AllOn .output OutputField.type xs := by
  induction fs with
  | nil => exact Leaves.pure fun s x hx => by cases hx
  | cons f fs ih =>
    unfold compileOutputFields
    refine Leaves.bind (innermost_stable .output OutputField.type) (compileOutputField_leaves file f) fun x => ?_
    exact Leaves.bind (allOn_stable _ _) ih fun xs => Leaves.pure fun s hxs hx => hxs.cons hx

/-- The result of a function is on the side of results, its arguments are on the other. -/
def Session.FunctionOn (s : Session) (f : OutputField) : Prop :=
  s.IsOn .output f.type.innermost ∧ s.AllOn .input InputField.type f.arguments

theorem functionOn_stable : Stable Session.FunctionOn :=
  fun _ _ h _ hf => ⟨hf.1.of_extends h, allOn_stable _ _ _ _ h _ hf.2⟩

theorem compileFunction_leaves (file : Path) (f : Function) : Leaves (compileFunction file f) Session.FunctionOn := by
  unfold compileFunction
  refine Leaves.bind (innermost_stable .output id) (compileType_leaves .output file _) fun g => ?_
  refine Leaves.bind (allOn_stable .input InputField.type) (compileInputFields_leaves file f.arguments) fun xs => ?_
  exact Leaves.after (Leaves.ofExcept fun s a => trivial) fun _ => Leaves.pure fun s hxs hg => ⟨hg, hxs.collect _⟩

/-! ### Fields keep to the side of their node -/

/-- The fields of a node on a side are on it, and have no arguments of their own. -/
def Session.FieldsOn (s : Session) (d : Direction) : Fields → Prop
  | .input fields => d = .input ∧ s.AllOn .input InputField.type fields
  | .output fields => d = .output ∧ s.AllOn .output OutputField.type fields ∧ ∀ f ∈ fields, f.arguments = []
  | .none => True

private theorem fieldsOn_stable (d : Direction) : Stable fun s fields => s.FieldsOn d fields := by
  intro s s' h fields hf
  cases fields with
  | input xs => exact ⟨hf.1, allOn_stable _ _ s s' h xs hf.2⟩
  | output xs => exact ⟨hf.1, allOn_stable _ _ s s' h xs hf.2.1, hf.2.2⟩
  | none => trivial

private theorem structInputFields_leaves (file : Path) (struct : Idl.Struct) :
    Leaves (structInputFields file struct) fun s xs => s.AllOn .input InputField.type xs := by
  unfold structInputFields
  split
  · refine Leaves.pure fun s x hx => ?_
    rw [List.mem_singleton.1 hx]
    trivial
  · exact Leaves.bind (allOn_stable _ _) (compileInputFields_leaves file struct.fields)
      fun xs => Leaves.pure fun s hxs => hxs.collect _

private theorem structOutputFields_leaves (file : Path) (struct : Idl.Struct) :
    Leaves (structOutputFields file struct) fun s xs => s.AllOn .output OutputField.type xs := by
  unfold structOutputFields
  split
  · refine Leaves.pure fun s x hx => ?_
    rw [List.mem_singleton.1 hx]
    trivial
  · exact Leaves.bind (allOn_stable _ _) (compileOutputFields_leaves file struct.fields)
      fun xs => Leaves.pure fun s hxs => hxs.collect _

/-- The fields of a node are on every side on which the node is. -/
def Session.FieldsOf (s : Session) (node : Node) (fields : Fields) : Prop := ∀ d, node.IsOn d → s.FieldsOn d fields

theorem fieldsOf_stable (node : Node) : Stable fun s fields => s.FieldsOf node fields :=
  fun _ _ h _ hf d hd => fieldsOn_stable d _ _ h _ (hf d hd)

theorem nodeFields_leaves (node : Node) : Leaves (nodeFields node) fun s fields => s.FieldsOf node fields := by
  cases node with
  | input name file struct =>
    unfold nodeFields withinFields
    refine Leaves.bind (allOn_stable _ _) (Leaves.adapt _ (structInputFields_leaves file struct)) fun xs => ?_
    exact Leaves.after (Leaves.ofExcept fun s a => trivial) fun _ => Leaves.pure fun s hxs d hd => ⟨hd, hxs⟩
  | output name file struct =>
    unfold nodeFields withinFields
    have hfields := (structOutputFields_leaves file struct).and (structOutputFields_arguments file struct)
    refine Leaves.bind (fun s s' h xs hxs => ⟨allOn_stable _ _ s s' h xs hxs.1, hxs.2⟩) (Leaves.adapt _ hfields)
      fun xs => ?_
    exact Leaves.after (Leaves.ofExcept fun s a => trivial) fun _ => Leaves.pure fun s hxs d hd => ⟨hd, hxs⟩
  | enumeration name members description =>
    exact Leaves.after (Leaves.ofExcept fun s a => trivial) fun _ => Leaves.pure fun s _ _ => trivial
  | foreign => exact Leaves.pure fun s _ _ => trivial

end ThriftGateway.Graph
