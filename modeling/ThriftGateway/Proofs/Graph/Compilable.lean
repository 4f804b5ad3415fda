import ThriftGateway.Proofs.Graph.Completing
import ThriftGateway.Proofs.Graph.Naming
import ThriftGateway.Proofs.Graph.Reading

/-!
# What can be compiled

`Reaches` says which type expressions compiling meets when it begins with some, and `Compilable` what must be known of
them.  Then compiling types, fields and functions completes, in every session that has made nodes only for what is
reached (`Session.IsReady`), and so does telling the fields of the nodes (`nodeFields_completes`).
-/

namespace ThriftGateway.Graph

open Idl (Field Function TypeExpr)
open Source (Library Path)

/-! ### What compiling reaches -/

section Reaching

variable (l : Library) (start : Direction → Path → TypeExpr → Prop)

/-- The type expressions that compiling reaches: those that it begins with, and the fields of every struct that one of
them stands for, through lists and typedefs, seen from the same side. -/
inductive Reaches : Direction → Path → TypeExpr → Prop
  | start {d : Direction} {file : Path} {t : TypeExpr} : start d file t → Reaches d file t
  | field {d : Direction} {file file' : Path} {t : TypeExpr} {e : Expansion} {struct : Idl.Struct} {f : Field} :
      Reaches d file t → expandType l [] file t = .ok e → e.core = .struct file' struct → f ∈ struct.fields →
      Reaches d file' (.field f)

/-- A core that a type expression stands for that compiling reaches. -/
def Meets (d : Direction) (core : Core) : Prop :=
  ∃ file t e, Reaches l start d file t ∧ expandType l [] file t = .ok e ∧ e.core = core

end Reaching

/-- An enumeration that can be a type: its name and those of its members are legal, and there is a member. -/
structure IsLegalEnumeration (e : Idl.Enumeration) : Prop where
  name : IsLegalName e.name
  nonempty : e.members ≠ []
  members : ∀ m ∈ e.members, IsLegalMember m.name
  readable : ∀ m ∈ e.members, ∀ literal ∈ m.initializer, literal.IsReadable

/-- What is reached can be compiled: every type expression stands for something, names are legal, and constants can be
read.  An enumeration that is compiled to an integer may be of any kind. -/
structure Compilable (l : Library) (enumsAsInts : Bool) (start : Direction → Path → TypeExpr → Prop) : Prop where
  resolves : ∀ {d file t}, Reaches l start d file t → ∃ e, expandType l [] file t = .ok e
  fields : ∀ {d file f}, Reaches l start d file (.field f) → IsLegalName f.name
  defaults : ∀ {file f}, Reaches l start .input file (.field f) → ∀ c ∈ f.default, c.IsReadable
  structs : ∀ {d file struct}, Meets l start d (.struct file struct) → IsLegalName struct.name
  enumerations : enumsAsInts = false → ∀ {d file e}, Meets l start d (.enumeration file e) → IsLegalEnumeration e

section

variable {l : Library} {enumsAsInts : Bool} {start : Direction → Path → TypeExpr → Prop}

theorem Reaches.field_of_meets {d : Direction} {file : Path} {struct : Idl.Struct}
    (h : Meets l start d (.struct file struct)) {f : Field} (hf : f ∈ struct.fields) :
    Reaches l start d file (.field f) := by
  obtain ⟨_, _, _, hreaches, he, hcore⟩ := h
  exact .field hreaches he hcore hf

/-! ### Sessions that have made what is reached -/

/-- What a node is known by, seen from a direction; scalars are no nodes. -/
def Core.key? (d : Direction) : Core → Option NodeKey
  | .scalar _ => none
  | .struct file s => some ⟨file.written, s.name, some d⟩
  | .enumeration file e => some ⟨file.written, e.name, none⟩

variable (l start) in
/-- A node that has been made for something that is reached, under its key. -/
inductive IsMade : NodeKey × Node → Prop
  | input {name : String} {file : Path} {struct : Idl.Struct} : Meets l start .input (.struct file struct) →
      IsLegalName name → IsMade (⟨file.written, struct.name, some .input⟩, .input name file struct)
  | output {name : String} {file : Path} {struct : Idl.Struct} : Meets l start .output (.struct file struct) →
      IsLegalName name → IsMade (⟨file.written, struct.name, some .output⟩, .output name file struct)
  | enumeration {name : String} {file : Path} {e : Idl.Enumeration} {members : List EnumMember} :
      IsLegalName name → members ≠ [] → (∀ m ∈ members, IsLegalMember m.name) →
      IsMade (⟨file.written, e.name, none⟩, .enumeration name members e.description)

variable (l enumsAsInts start) in
/-- A session that names types as they are declared, can make nodes, and has made some for what is reached. -/
structure Session.IsReady (s : Session) : Prop where
  library : s.library = l
  enumsAsInts : s.enumsAsInts = enumsAsInts
  naming : s.naming = declaredName
  isOpen : s.isSealed = false
  distinct : s.Distinct
  made : ∀ entry ∈ s.nodes, IsMade l start entry

theorem Session.IsReady.report {s : Session} (hs : s.IsReady l enumsAsInts start) (n : Notice) :
    (s.report n).IsReady l enumsAsInts start where
  library := hs.library
  enumsAsInts := hs.enumsAsInts
  naming := hs.naming
  isOpen := hs.isOpen
  distinct := ⟨hs.distinct.nodup, hs.distinct.used, hs.distinct.reserved⟩
  made := hs.made

/-- If the type is a node, it is the one of the core. -/
def Session.Shows (s : Session) (d : Direction) (core : Core) (t : NamedType) : Prop :=
  ∀ id, t = .node id → ∃ key node, core.key? d = some key ∧ s.nodes[id]? = some (key, node)

theorem Session.Extends.nodes_getElem? {s s' : Session} (h : s.Extends s') {id : Nat} {entry : NodeKey × Node}
    (he : s.nodes[id]? = some entry) : s'.nodes[id]? = some entry := by
  obtain ⟨more, hmore⟩ := h.nodes
  rw [hmore, List.getElem?_append_left (List.getElem?_eq_some_iff.1 he).1]
  exact he

private theorem shows_stable (d : Direction) (core : Core) : Stable fun s t => s.Shows d core t := by
  intro s s' h t ht id hid
  obtain ⟨key, node, hkey, hentry⟩ := ht id hid
  exact ⟨key, node, hkey, h.nodes_getElem? hentry⟩

/-! ### Making nodes -/

/-- A node that is made for something that is reached is there under its key. -/
private theorem nodeFor_completes {key : NodeKey} {make : Compile Node} (hm : Names Node.name make)
    (hmake : ∀ s, s.IsReady l enumsAsInts start → ∃ node, (Work.run make s).1 = .ok node ∧ IsMade l start (key, node)) :
    Completes (Session.IsReady l enumsAsInts start) (nodeFor key make)
      fun s id => ∃ node, s.nodes[id]? = some (key, node) := by
  intro s hs
  cases hf : s.find? key with
  | some id =>
    obtain ⟨hid, heq, -⟩ := List.findIdx?_eq_some_iff_getElem.1 hf
    refine ⟨id, s, run_nodeFor_of_find? hf, Session.Extends.refl s, hs, s.nodes[id].2, ?_⟩
    rw [List.getElem?_eq_getElem hid, ← of_decide_eq_true heq]
  | none =>
    obtain ⟨names, log, hsame⟩ := hm.same s
    obtain ⟨node, hr, hmade⟩ := hmake s hs
    have hrun := run_nodeFor_of_make hf hs.isOpen (Prod.ext hr hsame)
    have hgrows := (nodeFor_steady key hm).grows s
    have hdistinct := (nodeFor_steady key hm).distinct s hs.distinct
    rw [hrun] at hgrows hdistinct
    refine ⟨_, _, hrun, hgrows, ⟨hs.library, hs.enumsAsInts, hs.naming, hs.isOpen, hdistinct, ?_⟩, node, by simp⟩
    intro entry hentry
    rcases List.mem_append.1 hentry with hentry | hentry
    · exact hs.made entry hentry
    · rw [List.mem_singleton.1 hentry]
      exact hmade

/-- Giving out a name for a declaration with a legal name succeeds in a ready session. -/
private theorem run_giveName_of_isReady {s : Session} (hs : s.IsReady l enumsAsInts start) {r : NameRequest}
    (hr : IsLegalName r.name) :
    ∃ name names log, Work.run (giveName r) s = (.ok name, { s with names, log }) ∧ IsLegalName name :=
  run_giveName_of_isLegalName hs.distinct (by rw [hs.naming]; exact hr.declaredName)

private theorem makeStruct_made (h : Compilable l enumsAsInts start) {d : Direction} {file : Path} {struct : Idl.Struct}
    (hm : Meets l start d (.struct file struct)) {s : Session} (hs : s.IsReady l enumsAsInts start) :
    ∃ node, (Work.run (makeStruct (some d) file struct) s).1 = .ok node ∧
      IsMade l start (⟨file.written, struct.name, some d⟩, node) := by
  unfold makeStruct
  cases d with
  | input =>
    obtain ⟨name, names, log, hrun, hlegal⟩ :=
      run_giveName_of_isReady hs (r := ⟨file.written, struct.name, true, false⟩) (h.structs hm)
    refine ⟨.input name file struct, ?_, .input hm hlegal⟩
    dsimp only
    rw [Work.run_bind_of_ok hrun]
    rfl
  | output =>
    obtain ⟨name, names, log, hrun, hlegal⟩ :=
      run_giveName_of_isReady hs (r := ⟨file.written, struct.name, false, false⟩) (h.structs hm)
    refine ⟨.output name file struct, ?_, .output hm hlegal⟩
    dsimp only
    rw [Work.run_bind_of_ok hrun]
    rfl

private theorem makeEnumeration_made {file : Path} {e : Idl.Enumeration} (he : IsLegalEnumeration e) {s : Session}
    (hs : s.IsReady l enumsAsInts start) :
    ∃ node, (Work.run (makeEnumeration file e) s).1 = .ok node ∧
      IsMade l start (⟨file.written, e.name, none⟩, node) := by
  obtain ⟨members, hmembers, hnames⟩ := @exists_membersFrom 0 e.members he.readable
  obtain ⟨name, names, log, hrun, hlegal⟩ :=
    run_giveName_of_isReady hs (r := ⟨file.written, e.name, false, true⟩) he.name
  refine ⟨.enumeration name (collect EnumMember.name members) e.description, ?_, .enumeration hlegal ?_ ?_⟩
  · unfold makeEnumeration
    rw [hmembers, Work.run_bind_of_ok (Work.run_ofExcept_ok s)]
    dsimp only
    rw [Work.run_bind_of_ok hrun]
    rfl
  · refine collect_ne_nil fun hnil => he.nonempty ?_
    rw [hnil] at hnames
    exact List.map_eq_nil_iff.1 hnames.symm
  · intro m hm
    have hmem : m.name ∈ e.members.map Idl.Member.name := hnames ▸ List.mem_map_of_mem (mem_of_mem_collect hm)
    obtain ⟨m', hm', hname⟩ := List.mem_map.1 hmem
    exact hname ▸ he.members m' hm'

/-! ### Compiling types -/

private theorem compileCore_completes (h : Compilable l enumsAsInts start) {d : Direction} {core : Core}
    (hm : Meets l start d core) :
    Completes (Session.IsReady l enumsAsInts start) (compileCore (some d) core) fun s t => s.Shows d core t := by
  have hnode : ∀ (key : NodeKey) (make : Compile Node), core.key? d = some key → Names Node.name make →
      (∀ s, s.IsReady l enumsAsInts start → ∃ node, (Work.run make s).1 = .ok node ∧ IsMade l start (key, node)) →
      Completes (Session.IsReady l enumsAsInts start) (do return NamedType.node (← nodeFor key make))
        fun s t => s.Shows d core t := by
    intro key make hkey hnames hmake
    refine Completes.bind ?_ (nodeFor_completes hnames hmake) fun id _ => Completes.pure ?_
    · rintro s s' hs id ⟨node, hentry⟩
      exact ⟨node, hs.nodes_getElem? hentry⟩
    · rintro s - ⟨node, hentry⟩ id' hid
      cases hid
      exact ⟨key, node, hkey, hentry⟩
  cases core with
  | scalar x => exact Completes.pure fun s _ id hid => by cases hid
  | struct file struct => exact hnode _ _ rfl (makeStruct_names _ _ _) fun s hs => makeStruct_made h hm hs
  | enumeration file e =>
    refine Completes.look fun s₀ hs₀ => ?_
    split
    · exact Completes.pure fun s _ _ id hid => by cases hid
    · rename_i hints
      have he := h.enumerations (by rw [← hs₀.enumsAsInts]; simpa using hints) hm
      exact (hnode _ _ rfl (makeEnumeration_names _ _) fun s hs => makeEnumeration_made he hs).mono fun _ _ _ ht _ => ht

/-- A type with the core that it shows, for what the type expression stands for. -/
def Session.ShowsType (s : Session) (l : Library) (d : Direction) (file : Path) (ty : TypeExpr) (g : GraphType) :
    Prop :=
  ∃ e t, expandType l [] file ty = .ok e ∧ g = wrapped e.around t ∧ s.Shows d e.core t

private theorem compileType_completes (h : Compilable l enumsAsInts start) {d : Direction} {file : Path} {ty : TypeExpr}
    (hr : Reaches l start d file ty) :
    Completes (Session.IsReady l enumsAsInts start) (compileType (some d) file ty)
      fun s g => s.ShowsType l d file ty g := by
  obtain ⟨e, he⟩ := h.resolves hr
  refine Completes.look fun s₀ hs₀ => ?_
  rw [hs₀.library, he]
  show Completes _ (compileCore (some d) e.core >>= fun t => pure (wrapped e.around t)) _
  refine Completes.bind (shows_stable d e.core) (compileCore_completes h ⟨file, ty, e, hr, he, rfl⟩) fun t _ => ?_
  exact Completes.pure fun s _ ht _ => ⟨e, t, he, rfl, ht⟩

/-! ### Compiling fields and functions -/

/-- A compiled field is one of some fields: it has the name, and a type for what the field stands for. -/
def Session.IsField (s : Session) (l : Library) (d : Direction) (file : Path) (fs : List Field) (name : String)
    (type : GraphType) : Prop :=
  ∃ f ∈ fs, name = f.name ∧ s.ShowsType l d file (.field f) type

private theorem showsType_stable (l : Library) (d : Direction) (file : Path) (ty : TypeExpr) :
    Stable fun s g => s.ShowsType l d file ty g := by
  rintro s s' hs g ⟨e, t, he, hg, ht⟩
  exact ⟨e, t, he, hg, shows_stable d e.core s s' hs t ht⟩

theorem Session.IsField.of_extends {s s' : Session} (hs : s.Extends s') {d : Direction} {file : Path} {fs : List Field}
    {name : String} {type : GraphType} (h : s.IsField l d file fs name type) : s'.IsField l d file fs name type := by
  obtain ⟨f, hf, hname, htype⟩ := h
  exact ⟨f, hf, hname, showsType_stable l d file _ s s' hs type htype⟩

private theorem Session.IsField.isLegalName (h : Compilable l enumsAsInts start) {s : Session} {d : Direction}
    {file : Path}
    {fs : List Field} (hfs : ∀ f ∈ fs, Reaches l start d file (.field f)) {name : String} {type : GraphType}
    (hx : s.IsField l d file fs name type) : IsLegalName name := by
  obtain ⟨f, hf, rfl, -⟩ := hx
  exact h.fields (hfs f hf)

/-- The compiled fields are some of the fields, and if there are fields, one of them has been compiled. -/
def Session.AreFields {α : Type} (s : Session) (l : Library) (d : Direction) (file : Path) (fs : List Field)
    (nameOf : α → String) (typeOf : α → GraphType) (xs : List α) : Prop :=
  (fs ≠ [] → xs ≠ []) ∧ ∀ x ∈ xs, s.IsField l d file fs (nameOf x) (typeOf x)

section Fields

variable {α : Type} {d : Direction} {file : Path} {f : Field} {fs : List Field} {nameOf : α → String}
  {typeOf : α → GraphType}

private theorem isField_stable : Stable fun s (x : α) => s.IsField l d file fs (nameOf x) (typeOf x) :=
  fun _ _ hs _ hx => hx.of_extends hs

private theorem areFields_stable : Stable fun s (xs : List α) => s.AreFields l d file fs nameOf typeOf xs :=
  fun _ _ hs _ hxs => ⟨hxs.1, fun x hx => (hxs.2 x hx).of_extends hs⟩

theorem Session.AreFields.cons {s : Session} {x : α} {xs : List α}
    (hx : s.IsField l d file [f] (nameOf x) (typeOf x)) (hxs : s.AreFields l d file fs nameOf typeOf xs) :
    s.AreFields l d file (f :: fs) nameOf typeOf (x :: xs) := by
  refine ⟨fun _ => List.cons_ne_nil x xs, fun y hy => ?_⟩
  rcases List.mem_cons.1 hy with rfl | hy
  · obtain ⟨g, hg, hname, htype⟩ := hx
    obtain rfl := List.mem_singleton.1 hg
    exact ⟨g, List.mem_cons_self, hname, htype⟩
  · obtain ⟨g, hg, hname, htype⟩ := hxs.2 y hy
    exact ⟨g, List.mem_cons_of_mem _ hg, hname, htype⟩

theorem Session.AreFields.collect {s : Session} {xs : List α} (h : s.AreFields l d file fs nameOf typeOf xs) :
    s.AreFields l d file fs nameOf typeOf (Graph.collect nameOf xs) :=
  ⟨fun hne => collect_ne_nil (h.1 hne), fun x hx => h.2 x (mem_of_mem_collect hx)⟩

private theorem Session.AreFields.isLegalName (h : Compilable l enumsAsInts start) {s : Session}
    (hfs : ∀ f ∈ fs, Reaches l start d file (.field f)) {xs : List α}
    (hxs : s.AreFields l d file fs nameOf typeOf xs) : ∀ x ∈ xs, IsLegalName (nameOf x) :=
  fun x hx => (hxs.2 x hx).isLegalName h hfs

theorem checkAll_of_isLegalName {xs : List α} (h : ∀ x ∈ xs, IsLegalName (nameOf x)) :
    checkAll checkName (xs.map nameOf) = .ok () := by
  refine checkAll_eq_ok.2 fun name hname => ?_
  obtain ⟨x, hx, rfl⟩ := List.mem_map.1 hname
  exact (h x hx).isName

end Fields

private theorem compileInputField_completes (h : Compilable l enumsAsInts start) {file : Path} {f : Field}
    (hf : Reaches l start .input file (.field f)) :
    Completes (Session.IsReady l enumsAsInts start) (compileInputField file f)
      fun s x => s.IsField l .input file [f] x.name x.type := by
  unfold compileInputField compileField
  refine Completes.bind (showsType_stable l .input file _) (compileType_completes h hf) fun g _ => ?_
  obtain ⟨default, hdefault⟩ := exists_defaultFor (h.defaults hf) g
  refine Completes.bind (P := fun _ _ => True) (fun _ _ _ _ _ => trivial)
    (Completes.ofExcept hdefault fun _ _ => trivial) fun default _ => ?_
  exact Completes.pure fun s _ _ hg => ⟨f, List.mem_singleton_self f, rfl, hg⟩

private theorem compileInputFields_completes (h : Compilable l enumsAsInts start) {file : Path} {fs : List Field}
    (hfs : ∀ f ∈ fs, Reaches l start .input file (.field f)) :
    Completes (Session.IsReady l enumsAsInts start) (compileInputFields file fs)
      fun s xs => s.AreFields l .input file fs InputField.name InputField.type xs := by
  induction fs with
  | nil => exact Completes.pure fun s _ => ⟨absurd rfl, fun x hx => by cases hx⟩
  | cons f fs ih =>
    rw [List.forall_mem_cons] at hfs
    refine Completes.bind isField_stable (compileInputField_completes h hfs.1) fun x _ => ?_
    exact Completes.bind areFields_stable (ih hfs.2) fun xs _ => Completes.pure fun s _ hxs hx => hxs.cons hx

private theorem compileOutputField_completes (h : Compilable l enumsAsInts start) {file : Path} {f : Field}
    (hf : Reaches l start .output file (.field f)) :
    Completes (Session.IsReady l enumsAsInts start) (compileOutputField file f)
      fun s x => s.IsField l .output file [f] x.name x.type := by
  unfold compileOutputField compileField
  refine Completes.bind (showsType_stable l .output file _) (compileType_completes h hf) fun g _ => ?_
  exact Completes.pure fun s _ hg => ⟨f, List.mem_singleton_self f, rfl, hg⟩

private theorem compileOutputFields_completes (h : Compilable l enumsAsInts start) {file : Path} {fs : List Field}
    (hfs : ∀ f ∈ fs, Reaches l start .output file (.field f)) :
    Completes (Session.IsReady l enumsAsInts start) (compileOutputFields file fs)
      fun s xs => s.AreFields l .output file fs OutputField.name OutputField.type xs := by
  induction fs with
  | nil => exact Completes.pure fun s _ => ⟨absurd rfl, fun x hx => by cases hx⟩
  | cons f fs ih =>
    rw [List.forall_mem_cons] at hfs
    refine Completes.bind isField_stable (compileOutputField_completes h hfs.1) fun x _ => ?_
    exact Completes.bind areFields_stable (ih hfs.2) fun xs _ => Completes.pure fun s _ hxs hx => hxs.cons hx

/-- A function can be compiled if its result and its arguments are reached; its arguments get legal names. -/
theorem compileFunction_completes (h : Compilable l enumsAsInts start) {file : Path} {f : Function}
    (hresult : Reaches l start .output file f.result)
    (harguments : ∀ a ∈ f.arguments, Reaches l start .input file (.field a)) :
    Completes (Session.IsReady l enumsAsInts start) (compileFunction file f)
      fun _ x => ∀ a ∈ x.arguments, IsLegalName a.name := by
  unfold compileFunction
  refine Completes.bind (showsType_stable l .output file _) (compileType_completes h hresult) fun g _ => ?_
  refine Completes.bind areFields_stable (compileInputFields_completes h harguments) fun xs ⟨s, hxs⟩ => ?_
  have hlegal := hxs.collect.isLegalName h harguments
  refine Completes.after (Completes.ofExcept (checkAll_of_isLegalName hlegal) fun _ _ => trivial) fun _ => ?_
  exact Completes.pure fun s _ _ _ => hlegal

/-! ### The fields of nodes -/

/-- What the fields of an input object are known to be: there is one, they have legal names, and those that must be
given are fields of the struct. -/
def Session.AreInputs (s : Session) (l : Library) (file : Path) (struct : Idl.Struct) (xs : List InputField) : Prop :=
  xs ≠ [] ∧ ∀ x ∈ xs, IsLegalName x.name ∧
    (x.type.isNonNull = true → s.IsField l .input file struct.fields x.name x.type)

/-- What the fields of an object are known to be: there is one, they have legal names and no arguments. -/
def AreOutputs (xs : List OutputField) : Prop := xs ≠ [] ∧ ∀ x ∈ xs, IsLegalName x.name ∧ x.arguments = []

/-- What the fields of a node are known to be. -/
def Session.FieldsFor (s : Session) (l : Library) : Node → Fields → Prop
  | .input _ file struct, .input xs => s.AreInputs l file struct xs
  | .output .., .output xs => AreOutputs xs
  | .enumeration .., .none => True
  | _, _ => False

private theorem areInputs_stable (l : Library) (file : Path) (struct : Idl.Struct) :
    Stable fun s xs => s.AreInputs l file struct xs :=
  fun _ _ hs _ h => ⟨h.1, fun x hx => ⟨(h.2 x hx).1, fun hn => ((h.2 x hx).2 hn).of_extends hs⟩⟩

theorem fieldsFor_stable (l : Library) (node : Node) : Stable fun s fields => s.FieldsFor l node fields := by
  intro s s' hs fields h
  unfold Session.FieldsFor at h ⊢
  split at h
  · exact areInputs_stable l _ _ s s' hs _ h
  · exact h
  · trivial
  · exact h

private theorem isLegalName_placeholder : IsLegalName placeholderName := by decide

private theorem structInputFields_completes (h : Compilable l enumsAsInts start) {file : Path} {struct : Idl.Struct}
    (hm : Meets l start .input (.struct file struct)) :
    Completes (Session.IsReady l enumsAsInts start) (structInputFields file struct)
      fun s xs => s.AreInputs l file struct xs := by
  have hfs : ∀ f ∈ struct.fields, Reaches l start .input file (.field f) := fun f hf => .field_of_meets hm hf
  unfold structInputFields
  split
  · refine Completes.pure fun s _ => ⟨List.cons_ne_nil _ _, fun x hx => ?_⟩
    rw [List.mem_singleton.1 hx]
    exact ⟨isLegalName_placeholder, fun hn => by cases hn⟩
  · rename_i hne
    refine Completes.bind areFields_stable (compileInputFields_completes h hfs) fun xs _ =>
      Completes.pure fun s _ hxs => ?_
    refine ⟨hxs.collect.1 (by simpa using hne), fun x hx => ?_⟩
    exact ⟨hxs.collect.isLegalName h hfs x hx, fun _ => hxs.collect.2 x hx⟩

private theorem structOutputFields_completes (h : Compilable l enumsAsInts start) {file : Path} {struct : Idl.Struct}
    (hm : Meets l start .output (.struct file struct)) :
    Completes (Session.IsReady l enumsAsInts start) (structOutputFields file struct) fun _ xs => AreOutputs xs := by
  have hfs : ∀ f ∈ struct.fields, Reaches l start .output file (.field f) := fun f hf => .field_of_meets hm hf
  unfold structOutputFields
  split
  · refine Completes.pure fun s _ => ⟨List.cons_ne_nil _ _, fun x hx => ?_⟩
    rw [List.mem_singleton.1 hx]
    exact ⟨isLegalName_placeholder, rfl⟩
  · rename_i hne
    have hfields := (compileOutputFields_completes h hfs).and (compileOutputFields_arguments file struct.fields)
    refine Completes.bind (fun s s' hs xs hxs => ⟨areFields_stable s s' hs xs hxs.1, hxs.2⟩) hfields fun xs _ => ?_
    refine Completes.pure fun s _ hxs => ⟨hxs.1.collect.1 (by simpa using hne), fun x hx => ?_⟩
    exact ⟨hxs.1.collect.isLegalName h hfs x hx, hxs.2 x (mem_of_mem_collect hx)⟩

/-- The fields of a node that has been made can be told. -/
theorem nodeFields_completes (h : Compilable l enumsAsInts start) {key : NodeKey} {node : Node}
    (hm : IsMade l start (key, node)) :
    Completes (Session.IsReady l enumsAsInts start) (nodeFields node) fun s fields => s.FieldsFor l node fields := by
  cases hm with
  | @input name file struct hm hn =>
    unfold nodeFields withinFields
    refine Completes.bind (areInputs_stable l file struct) (Completes.adapt _ (structInputFields_completes h hm))
      fun xs ⟨s, hxs⟩ => ?_
    have hnames := checkAll_of_isLegalName fun x hx => (hxs.2 x hx).1
    exact Completes.after (Completes.ofExcept hnames fun _ _ => trivial) fun _ => Completes.pure fun s _ hxs => hxs
  | @output name file struct hm hn =>
    unfold nodeFields withinFields
    refine Completes.bind (fun _ _ _ _ hxs => hxs) (Completes.adapt _ (structOutputFields_completes h hm))
      fun xs ⟨s, hxs⟩ => ?_
    have hnames := checkAll_of_isLegalName fun x hx => (hxs.2 x hx).1
    exact Completes.after (Completes.ofExcept hnames fun _ _ => trivial) fun _ => Completes.pure fun s _ hxs => hxs
  | @enumeration name file e members hn hne hmembers =>
    unfold nodeFields
    have hnames : checkAll checkMemberName (members.map EnumMember.name) = .ok () := by
      refine checkAll_eq_ok.2 fun name hname => ?_
      obtain ⟨m, hmem, rfl⟩ := List.mem_map.1 hname
      exact (hmembers m hmem).check
    exact Completes.after (Completes.ofExcept hnames fun _ _ => trivial) fun _ => Completes.pure fun s _ => trivial

end

end ThriftGateway.Graph
