import ThriftGateway.Proofs.Graph.Compilable

/-!
# What is told of types

What compiling tells of types, fields and functions is settled by the library alone, up to the numbers of nodes: a type
has the core inside that its expression stands for, or the node with the key of that core (`Session.TellsType`).  That
holds in all sessions where nodes are found by their keys (`FindsNodes`).  It holds of every request that succeeds in a
session that began without nodes (`work_yields`), since all nodes there have been made for what the requests reach
(`Session.Traces`), under their keys and with the preferred names as far as these were free.
-/

namespace ThriftGateway.Graph

open Idl (Field Function TypeExpr)
open Source (Library Path)

variable {ε δ α β : Type}

/-! ### Work that succeeds -/

/-- Whenever the work succeeds where the invariant holds, it has only added to the session and kept the invariant, and
what it gives has the property in the session that it leaves. -/
def Yields (I : Session → Prop) (w : Work ε α) (P : Session → α → Prop) : Prop :=
  ∀ s s' a, I s → Work.run w s = (.ok a, s') → s.Extends s' ∧ I s' ∧ P s' a

namespace Yields

variable {I : Session → Prop} {P P' : Session → α → Prop} {Q : Session → β → Prop}

theorem pure {a : α} (h : ∀ s, I s → P s a) : Yields I (Pure.pure a : Work ε α) P := by
  intro s s' b hs hb
  cases hb
  exact ⟨Session.Extends.refl s, hs, h s hs⟩

private theorem throw (e : ε) : Yields I (MonadExcept.throw e : Work ε α) P := by
  intro s s' b hs hb
  cases hb

private theorem ofExcept {wrap : δ → ε} {r : Except δ α} (h : ∀ s a, I s → r = .ok a → P s a) :
    Yields I (Work.ofExcept wrap r) P := by
  cases r with
  | ok a => exact pure fun s hs => h s a hs rfl
  | error e => exact throw (wrap e)

theorem adapt (f : δ → ε) {w : Work δ α} (hw : Yields I w P) : Yields I (ExceptT.adapt f w : Work ε α) P :=
  fun s s' a hs ha => hw s s' a hs (Work.run_adapt_eq_ok.1 ha)

/-- What the first step gives still has its property when the second step is done. -/
theorem bind {w : Work ε α} {k : α → Work ε β} (hP : Stable P) (hw : Yields I w P)
    (hk : ∀ a, Yields I (k a) fun s b => P s a → Q s b) : Yields I (w >>= k) Q := by
  intro s s'' b hs hb
  obtain ⟨a, s', ha, hb⟩ := Work.run_bind_eq_ok.1 hb
  obtain ⟨hgrows, hs', hPa⟩ := hw s s' a hs ha
  obtain ⟨hgrows', hs'', hQ⟩ := hk a s' s'' b hs' hb
  exact ⟨hgrows.trans hgrows', hs'', hQ (hP _ _ hgrows' a hPa)⟩

/-- A first step that only looks something up or checks something. -/
private theorem bind_ofExcept {wrap : δ → ε} {r : Except δ α} {k : α → Work ε β}
    (hk : ∀ a, r = .ok a → Yields I (k a) Q) : Yields I (Work.ofExcept wrap r >>= k) Q := by
  intro s s' b hs hb
  obtain ⟨a, s₁, ha, hb'⟩ := Work.run_bind_eq_ok.1 hb
  obtain ⟨hr, rfl⟩ := Work.run_ofExcept_eq_ok.1 ha
  exact hk a hr s₁ s' b hs hb'

private theorem mono {w : Work ε α} (hw : Yields I w P) (h : ∀ s a, I s → P s a → P' s a) : Yields I w P' := by
  intro s s' a hs ha
  obtain ⟨hgrows, hs', hPa⟩ := hw s s' a hs ha
  exact ⟨hgrows, hs', h s' a hs' hPa⟩

/-- Work that looks at the session. -/
theorem look {k : Session → Work ε β} (hk : ∀ s, I s → Yields I (k s) Q) : Yields I (get >>= k) Q :=
  fun s s' b hs hb => hk s hs s s' b hs hb

end Yields

/-! ### Preferred names -/

/-- The name that a node is to have. -/
def preferredName (naming : TypeNaming) (key : NodeKey) : String :=
  naming ⟨key.file, key.name, key.direction = some .input, key.direction = none⟩

namespace Session

variable (naming : TypeNaming) (s : Session)

/-- The preferred names of the nodes differ, and none is reserved. -/
structure PrefersDistinct : Prop where
  nodup : (s.nodes.map fun n => preferredName naming n.1).Nodup
  unreserved : ∀ n ∈ s.nodes, preferredName naming n.1 ∉ reservedNames

/-- Nodes have their preferred names, or these with numbers behind them.  No name is in use but the reserved ones and
those of nodes; so if the preferred names differ and none is reserved, the nodes have them. -/
structure NamedByPreference : Prop where
  given : ∀ n ∈ s.nodes,
    n.2.name = preferredName naming n.1 ∨ ∃ k, n.2.name = NameTable.numbered (preferredName naming n.1) k
  used : ∀ name ∈ s.names.used, name ∈ reservedNames ∨ name ∈ s.nodeNames
  kept : s.PrefersDistinct naming → ∀ n ∈ s.nodes, n.2.name = preferredName naming n.1

end Session

private theorem NameTable.allocate_given (t : NameTable) (preferred : String) :
    (t.allocate preferred).1 = preferred ∨ ∃ k, (t.allocate preferred).1 = numbered preferred k := by
  unfold allocate
  split
  · exact Or.inr ⟨_, rfl⟩
  · exact Or.inl rfl

/-- A new node with the name that the table gives out for it. -/
private theorem Session.NamedByPreference.append {naming : TypeNaming} {s : Session} (h : s.NamedByPreference naming)
    {key : NodeKey} {node : Node} (hnode : node.name = (s.names.allocate (preferredName naming key)).1)
    (log : List Notice) :
    Session.NamedByPreference naming { s with
      names := (s.names.allocate (preferredName naming key)).2, log, nodes := s.nodes ++ [(key, node)] } where
  given n hn := by
    rcases List.mem_append.1 hn with hn | hn
    · exact h.given n hn
    · rw [List.mem_singleton.1 hn, hnode]
      exact NameTable.allocate_given _ _
  used name hn := by
    have hnames : Session.nodeNames { s with
        names := (s.names.allocate (preferredName naming key)).2, log, nodes := s.nodes ++ [(key, node)] } =
          s.nodeNames ++ [node.name] := by simp [Session.nodeNames]
    rw [hnames, List.mem_append, List.mem_singleton]
    dsimp only at hn
    rw [NameTable.used_allocate, ← hnode] at hn
    rcases List.mem_cons.1 hn with hn | hn
    · exact Or.inr (Or.inr hn)
    · exact (h.used name hn).imp_right Or.inl
  kept := by
    rintro ⟨hnodup, hunreserved⟩
    simp only [List.map_append, List.nodup_append, List.map_cons, List.map_nil, List.mem_append] at hnodup hunreserved
    obtain ⟨hnodup, -, hnew⟩ := hnodup
    have hkept := h.kept ⟨hnodup, fun n hn => hunreserved n (Or.inl hn)⟩
    intro n hn
    rcases List.mem_append.1 hn with hn | hn
    · exact hkept n hn
    · obtain rfl := List.mem_singleton.1 hn
      rw [hnode]
      refine NameTable.allocate_of_notMem fun hused => ?_
      rcases h.used _ hused with hreserved | hmem
      · exact hunreserved (key, node) (Or.inr (List.mem_singleton_self _)) hreserved
      · obtain ⟨n, hn, hname⟩ := List.mem_map.1 hmem
        exact hnew _ (List.mem_map_of_mem hn) _ (List.mem_singleton_self _) ((hkept n hn).symm.trans hname)

/-! ### Nodes and what they are made for -/

/-- A node for a core, seen from a direction, and its key; enumerations get nodes if they are not made integers. -/
inductive Core.IsMadeAs (enumsAsInts : Bool) : Direction → Core → NodeKey → Node → Prop
  | input {name : String} {file : Path} {struct : Idl.Struct} :
      IsMadeAs enumsAsInts .input (.struct file struct) ⟨file.written, struct.name, some .input⟩
        (.input name file struct)
  | output {name : String} {file : Path} {struct : Idl.Struct} :
      IsMadeAs enumsAsInts .output (.struct file struct) ⟨file.written, struct.name, some .output⟩
        (.output name file struct)
  | enumeration {d : Direction} {name : String} {file : Path} {e : Idl.Enumeration} {members : List EnumMember} :
      enumsAsInts = false → membersFrom 0 e.members = .ok members →
      IsMadeAs enumsAsInts d (.enumeration file e) ⟨file.written, e.name, none⟩
        (.enumeration name (collect EnumMember.name members) e.description)

theorem Core.IsMadeAs.key? {enumsAsInts : Bool} {d : Direction} {core : Core} {key : NodeKey} {node : Node}
    (h : core.IsMadeAs enumsAsInts d key node) : core.key? d = some key := by
  cases h <;> rfl

section Traces

variable (l : Library) (enumsAsInts : Bool) (naming : TypeNaming) (start : Direction → Path → TypeExpr → Prop)

/-- All nodes of the session have been made for something that is reached, under keys of their own. -/
structure Session.Traces (s : Session) : Prop where
  found : ∀ id key node, s.nodes[id]? = some (key, node) → s.find? key = some id
  made : ∀ key node, (key, node) ∈ s.nodes → ∃ d core, Meets l start d core ∧ core.IsMadeAs enumsAsInts d key node
  named : s.NamedByPreference naming
  library : s.library = l
  enumsAsInts : s.enumsAsInts = enumsAsInts
  naming : s.naming = naming

end Traces

variable {l : Library} {enumsAsInts : Bool} {naming : TypeNaming} {start : Direction → Path → TypeExpr → Prop}

/-- Work that succeeds by giving out the preferred name of a key, which what it makes then has. -/
def GivesName (naming : TypeNaming) (key : NodeKey) (make : Compile Node) : Prop :=
  ∀ s s' node, s.naming = naming → Work.run make s = (.ok node, s') →
    node.name = (s.names.allocate (preferredName naming key)).1 ∧
      ∃ log, s' = { s with names := (s.names.allocate (preferredName naming key)).2, log }

private theorem givesName_of_giveName {r : NameRequest} {key : NodeKey} (hr : naming r = preferredName naming key)
    {f : String → Node} (hf : ∀ name, (f name).name = name) :
    GivesName naming key (do return f (← giveName r)) := by
  rintro s s' node rfl h
  obtain ⟨name, s₁, hname, h⟩ := Work.run_bind_eq_ok.1 h
  cases h
  obtain ⟨log, hlog, hgiven⟩ := run_giveName r s
  rw [hname] at hlog hgiven
  rw [← hr, hf]
  exact ⟨hgiven name rfl, log, hlog⟩

private theorem makeStruct_givesName (d : Direction) (file : Path) (struct : Idl.Struct) :
    GivesName naming ⟨file.written, struct.name, some d⟩ (makeStruct (some d) file struct) := by
  cases d with
  | input => exact givesName_of_giveName (f := fun name => .input name file struct) rfl fun _ => rfl
  | output => exact givesName_of_giveName (f := fun name => .output name file struct) rfl fun _ => rfl

private theorem makeEnumeration_givesName (file : Path) (e : Idl.Enumeration) :
    GivesName naming ⟨file.written, e.name, none⟩ (makeEnumeration file e) := by
  intro s s' node hs h
  obtain ⟨members, s₁, hmembers, hmake⟩ := Work.run_bind_eq_ok.1 h
  obtain ⟨-, rfl⟩ := Work.run_ofExcept_eq_ok.1 hmembers
  exact givesName_of_giveName (f := fun name => .enumeration name (collect EnumMember.name members) e.description) rfl
    (fun _ => rfl) s₁ s' node hs hmake

theorem makeStruct_gives (d : Direction) (file : Path) (struct : Idl.Struct) :
    Gives (makeStruct (some d) file struct) fun node =>
      (Core.struct file struct).IsMadeAs enumsAsInts d ⟨file.written, struct.name, some d⟩ node := by
  cases d with
  | input => exact Gives.after fun name => Gives.pure .input
  | output => exact Gives.after fun name => Gives.pure .output

theorem makeEnumeration_gives (hints : enumsAsInts = false) (d : Direction) (file : Path) (e : Idl.Enumeration) :
    Gives (makeEnumeration file e) fun node =>
      (Core.enumeration file e).IsMadeAs enumsAsInts d ⟨file.written, e.name, none⟩ node :=
  Gives.bind (Gives.ofExcept (P := fun members => membersFrom 0 e.members = .ok members) fun _ h => h)
    fun _ h => Gives.after fun _ => Gives.pure (.enumeration hints h)

/-- A node that is asked for is there under its key. -/
private theorem nodeFor_yields {d : Direction} {core : Core} {key : NodeKey} {make : Compile Node}
    (hm : Meets l start d core)
    (hname : GivesName naming key make) (hmade : Gives make fun node => core.IsMadeAs enumsAsInts d key node) :
    Yields (Session.Traces l enumsAsInts naming start) (nodeFor key make) fun s id => s.find? key = some id := by
  intro s s' id hs h
  cases hf : s.find? key with
  | some id' =>
    rw [run_nodeFor_of_find? hf] at h
    cases h
    exact ⟨Session.Extends.refl s, hs, hf⟩
  | none =>
    by_cases hsealed : s.isSealed = true
    · rw [run_nodeFor_of_sealed hf hsealed] at h
      cases h
    have hsealed : s.isSealed = false := by simpa using hsealed
    cases hr : Work.run make s with
    | mk r s₁ =>
    cases r with
    | error e =>
      rw [run_nodeFor_of_error hf hsealed hr] at h
      cases h
    | ok node =>
      rw [run_nodeFor_of_make hf hsealed hr] at h
      obtain ⟨hnode, log, rfl⟩ := hname s s₁ node hs.naming hr
      cases h
      have hfound : ∀ {key' id'}, s.find? key' = some id' →
          (s.nodes ++ [(key, node)]).findIdx? (·.1 = key') = some id' := by
        intro key' id' h
        rw [List.findIdx?_append, show s.nodes.findIdx? (·.1 = key') = some id' from h]
        rfl
      have hnew : (s.nodes ++ [(key, node)]).findIdx? (·.1 = key) = some s.nodes.length := by
        rw [List.findIdx?_append, show s.nodes.findIdx? (·.1 = key) = none from hf]
        simp
      refine ⟨⟨rfl, Library.Extends.refl _, [(key, node)], rfl⟩,
        ⟨fun id' key' node' hn => ?_, fun key' node' hn => ?_, hs.named.append hnode log, hs.library, hs.enumsAsInts,
          hs.naming⟩, hnew⟩
      · rcases lt_or_ge id' s.nodes.length with hlt | hge
        · rw [List.getElem?_append_left hlt] at hn
          exact hfound (hs.found id' key' node' hn)
        · rw [List.getElem?_append_right hge, List.getElem?_singleton] at hn
          split at hn
          · cases hn
            rw [show id' = s.nodes.length by omega]
            exact hnew
          · cases hn
      · rcases List.mem_append.1 hn with hn | hn
        · exact hs.made key' node' hn
        · cases List.mem_singleton.1 hn
          exact ⟨d, core, hm, hmade _ _ _ hr⟩

/-! ### What is told of types -/

/-- What is inside a type for a core: the scalar, or the node with the key of the core. -/
inductive Session.Finds (s : Session) (d : Direction) : Core → NamedType → Prop
  | scalar (x : Scalar) : Finds s d (.scalar x) (.scalar x)
  | struct {file : Path} {struct : Idl.Struct} {id : Nat} :
      s.find? ⟨file.written, struct.name, some d⟩ = some id → Finds s d (.struct file struct) (.node id)
  | integer {file : Path} {e : Idl.Enumeration} : s.enumsAsInts = true → Finds s d (.enumeration file e) (.scalar .int)
  | enumeration {file : Path} {e : Idl.Enumeration} {id : Nat} :
      s.enumsAsInts = false → s.find? ⟨file.written, e.name, none⟩ = some id →
      Finds s d (.enumeration file e) (.node id)

private theorem finds_stable (d : Direction) (core : Core) : Stable fun s t => s.Finds d core t := by
  intro s s' hs t h
  cases h with
  | scalar x => exact .scalar x
  | struct hid => exact .struct (hs.find? hid)
  | integer hints => exact .integer (hs.enumsAsInts.trans hints)
  | enumeration hints hid => exact .enumeration (hs.enumsAsInts.trans hints) (hs.find? hid)

private theorem find?_stable (key : NodeKey) : Stable fun s (id : Nat) => s.find? key = some id :=
  fun _ _ hs _ hid => hs.find? hid

/-- A property that making nodes for what is reached keeps, in sessions with a library, and nodes that are made are
found by their keys. -/
structure FindsNodes (l : Library) (ints : Bool) (start : Direction → Path → TypeExpr → Prop) (I : Session → Prop) :
    Prop where
  library : ∀ s, I s → s.library = l
  enumsAsInts : ∀ s, I s → s.enumsAsInts = ints
  struct : ∀ {d file struct}, Meets l start d (.struct file struct) →
    Yields I (nodeFor ⟨file.written, struct.name, some d⟩ (makeStruct (some d) file struct))
      fun s id => s.find? ⟨file.written, struct.name, some d⟩ = some id
  enumeration : ints = false → ∀ {d file e}, Meets l start d (.enumeration file e) →
    Yields I (nodeFor ⟨file.written, e.name, none⟩ (makeEnumeration file e))
      fun s id => s.find? ⟨file.written, e.name, none⟩ = some id

private theorem findsNodes_traces : FindsNodes l enumsAsInts start (Session.Traces l enumsAsInts naming start) where
  library _ hs := hs.library
  enumsAsInts _ hs := hs.enumsAsInts
  struct hm := nodeFor_yields hm (makeStruct_givesName _ _ _) (makeStruct_gives _ _ _)
  enumeration hints _ _ _ hm := nodeFor_yields hm (makeEnumeration_givesName _ _) (makeEnumeration_gives hints _ _ _)

/-- Nodes are found by their keys in all sessions, whatever else they have nodes for. -/
theorem findsNodes_library : FindsNodes l enumsAsInts start fun s => s.library = l ∧ s.enumsAsInts = enumsAsInts := by
  have hnode : ∀ {key make}, Names Node.name make → Yields (fun s => s.library = l ∧ s.enumsAsInts = enumsAsInts)
      (nodeFor key make) fun s id => s.find? key = some id := by
    intro key make hm s s' id hs h
    have hgrows := (nodeFor_steady key hm).grows s
    have hlibrary : (Work.run (nodeFor key make) s).2.library = s.library := by
      obtain ⟨_, -, hr⟩ | ⟨-, _, _, _, hr, -⟩ | ⟨-, _, _, _, hr, -⟩ := run_nodeFor_cases key hm s <;> rw [hr]
    rw [h] at hgrows hlibrary
    exact ⟨hgrows, ⟨hlibrary.trans hs.1, hgrows.enumsAsInts.trans hs.2⟩, find?_of_nodeFor hm h⟩
  exact ⟨fun _ hs => hs.1, fun _ hs => hs.2, fun _ => hnode (makeStruct_names _ _ _),
    fun _ _ _ _ _ => hnode (makeEnumeration_names _ _)⟩

private theorem compileCore_yields {I : Session → Prop} (hI : FindsNodes l enumsAsInts start I) {d : Direction}
    {core : Core} (hm : Meets l start d core) : Yields I (compileCore (some d) core) fun s t => s.Finds d core t := by
  cases core with
  | scalar x => exact Yields.pure fun s _ => .scalar x
  | struct file struct =>
    refine Yields.bind (find?_stable _) (hI.struct hm) fun id => ?_
    exact Yields.pure fun s _ hid => .struct hid
  | enumeration file e =>
    refine Yields.look fun s₀ hs₀ => ?_
    split
    · rename_i hints
      exact Yields.pure fun s hs => .integer (by rw [hI.enumsAsInts s hs, ← hI.enumsAsInts s₀ hs₀, hints])
    · rename_i hints
      have hints : enumsAsInts = false := by rw [← hI.enumsAsInts s₀ hs₀]; simpa using hints
      refine Yields.bind (find?_stable _) (hI.enumeration hints hm) fun id => ?_
      exact Yields.pure fun s hs hid => .enumeration ((hI.enumsAsInts s hs).trans hints) hid

variable (l) in
/-- The type for what a type expression stands for. -/
def Session.TellsType (s : Session) (d : Direction) (file : Path) (ty : TypeExpr) (g : GraphType) : Prop :=
  ∃ e t, expandType l [] file ty = .ok e ∧ g = wrapped e.around t ∧ s.Finds d e.core t

private theorem tellsType_stable (d : Direction) (file : Path) (ty : TypeExpr) :
    Stable fun s g => s.TellsType l d file ty g := by
  rintro s s' hs g ⟨e, t, he, hg, ht⟩
  exact ⟨e, t, he, hg, finds_stable d e.core s s' hs t ht⟩

theorem compileType_yields {I : Session → Prop} (hI : FindsNodes l enumsAsInts start I) {d : Direction} {file : Path}
    {ty : TypeExpr} (hr : Reaches l start d file ty) :
    Yields I (compileType (some d) file ty) fun s g => s.TellsType l d file ty g := by
  refine Yields.look fun s₀ hs₀ => ?_
  rw [hI.library s₀ hs₀]
  refine Yields.bind_ofExcept fun e he => ?_
  refine Yields.bind (finds_stable d e.core) (compileCore_yields hI ⟨file, ty, e, hr, he, rfl⟩) fun t => ?_
  exact Yields.pure fun s _ ht => ⟨e, t, he, rfl, ht⟩

/-! ### What is told of fields and functions -/

section Fields

variable (l) (s : Session) (file : Path)

/-- What is told of a field that takes a value. -/
structure Session.TellsInput (f : Field) (x : InputField) : Prop where
  name : x.name = f.name
  type : s.TellsType l .input file (.field f) x.type
  default : defaultFor f.default x.type = .ok x.default
  description : x.description = f.description

/-- What is told of a field that gives a value. -/
structure Session.TellsOutput (f : Field) (x : OutputField) : Prop where
  name : x.name = f.name
  type : s.TellsType l .output file (.field f) x.type
  arguments : x.arguments = []
  description : x.description = f.description

/-- What is told of several fields: all have been told of one after another, and those with one name brought
together. -/
def Gathers (R : Field → α → Prop) (nameOf : α → String) (fs : List Field) (xs : List α) : Prop :=
  ∃ all, List.Forall₂ R fs all ∧ xs = collect nameOf all

/-- What is told of the fields of a struct; a placeholder stands for none. -/
inductive GathersStruct (R : Field → α → Prop) (nameOf : α → String) (placeholder : α) (fs : List Field) :
    List α → Prop
  | none : fs = [] → GathersStruct R nameOf placeholder fs [placeholder]
  | fields {xs : List α} : fs ≠ [] → Gathers R nameOf fs xs → GathersStruct R nameOf placeholder fs xs

/-- What is told of a function. -/
structure Session.TellsFunction (f : Function) (x : OutputField) : Prop where
  name : x.name = f.name
  type : s.TellsType l .output file f.result x.type
  arguments : Gathers (s.TellsInput l file) InputField.name f.arguments x.arguments
  description : x.description = f.description

end Fields

variable (l) in
/-- What is told of the fields of a node. -/
def Session.TellsFields (s : Session) : Node → Fields → Prop
  | .input _ file struct, .input xs =>
    GathersStruct (s.TellsInput l file) InputField.name
      ⟨placeholderName, .named (.scalar .boolean), none, some placeholderDescription⟩ struct.fields xs
  | .output _ file struct, .output xs =>
    GathersStruct (s.TellsOutput l file) OutputField.name
      ⟨placeholderName, .named (.scalar .boolean), [], some placeholderDescription⟩ struct.fields xs
  | .enumeration .., .none => True
  | _, _ => False

private theorem Gathers.mono {R R' : Field → α → Prop} (h : ∀ f x, R f x → R' f x) {nameOf : α → String}
    {fs : List Field} {xs : List α} (hxs : Gathers R nameOf fs xs) : Gathers R' nameOf fs xs := by
  obtain ⟨all, hall, rfl⟩ := hxs
  exact ⟨all, hall.imp h, rfl⟩

private theorem GathersStruct.mono {R R' : Field → α → Prop} (h : ∀ f x, R f x → R' f x) {nameOf : α → String}
    {placeholder : α} {fs : List Field} {xs : List α} (hxs : GathersStruct R nameOf placeholder fs xs) :
    GathersStruct R' nameOf placeholder fs xs := by
  cases hxs with
  | none hnil => exact .none hnil
  | fields hne hxs => exact .fields hne (hxs.mono h)

section Stability

variable {file : Path} {s s' : Session} (hs : s.Extends s')
include hs

theorem Session.TellsInput.of_extends {f : Field} {x : InputField} (h : s.TellsInput l file f x) :
    s'.TellsInput l file f x :=
  ⟨h.name, tellsType_stable _ _ _ _ _ hs _ h.type, h.default, h.description⟩

theorem Session.TellsOutput.of_extends {f : Field} {x : OutputField} (h : s.TellsOutput l file f x) :
    s'.TellsOutput l file f x :=
  ⟨h.name, tellsType_stable _ _ _ _ _ hs _ h.type, h.arguments, h.description⟩

theorem Session.TellsFunction.of_extends {f : Function} {x : OutputField} (h : s.TellsFunction l file f x) :
    s'.TellsFunction l file f x :=
  ⟨h.name, tellsType_stable _ _ _ _ _ hs _ h.type, h.arguments.mono fun _ _ hx => hx.of_extends hs, h.description⟩

theorem Session.TellsFields.of_extends {node : Node} {fields : Fields} (h : s.TellsFields l node fields) :
    s'.TellsFields l node fields := by
  unfold Session.TellsFields at h ⊢
  split at h
  · exact h.mono fun _ _ hx => hx.of_extends hs
  · exact h.mono fun _ _ hx => hx.of_extends hs
  · exact h
  · exact h

end Stability

section

variable {I : Session → Prop} (hI : FindsNodes l enumsAsInts start I) {file : Path}
include hI

private theorem compileInputField_yields {f : Field} (hf : Reaches l start .input file (.field f)) :
    Yields I (compileInputField file f) fun s x => s.TellsInput l file f x := by
  unfold compileInputField compileField
  refine Yields.bind (tellsType_stable .input file _) (compileType_yields hI hf) fun g => ?_
  exact Yields.bind_ofExcept fun default hdefault => Yields.pure fun s _ hg => ⟨rfl, hg, hdefault, rfl⟩

private theorem compileOutputField_yields {f : Field} (hf : Reaches l start .output file (.field f)) :
    Yields I (compileOutputField file f) fun s x => s.TellsOutput l file f x := by
  unfold compileOutputField compileField
  refine Yields.bind (tellsType_stable .output file _) (compileType_yields hI hf) fun g => ?_
  exact Yields.pure fun s _ hg => ⟨rfl, hg, rfl, rfl⟩

private theorem compileInputFields_yields {fs : List Field} (hfs : ∀ f ∈ fs, Reaches l start .input file (.field f)) :
    Yields I (compileInputFields file fs) fun s xs => List.Forall₂ (s.TellsInput l file) fs xs := by
  induction fs with
  | nil => exact Yields.pure fun s _ => .nil
  | cons f fs ih =>
    rw [List.forall_mem_cons] at hfs
    refine Yields.bind (fun s s' hs x hx => hx.of_extends hs) (compileInputField_yields hI hfs.1) fun x => ?_
    refine Yields.bind (fun s s' hs xs hxs => hxs.imp fun _ _ hx => hx.of_extends hs) (ih hfs.2) fun xs => ?_
    exact Yields.pure fun s _ hxs hx => .cons hx hxs

private theorem compileOutputFields_yields {fs : List Field} (hfs : ∀ f ∈ fs, Reaches l start .output file (.field f)) :
    Yields I (compileOutputFields file fs) fun s xs => List.Forall₂ (s.TellsOutput l file) fs xs := by
  induction fs with
  | nil => exact Yields.pure fun s _ => .nil
  | cons f fs ih =>
    rw [List.forall_mem_cons] at hfs
    refine Yields.bind (fun s s' hs x hx => hx.of_extends hs) (compileOutputField_yields hI hfs.1) fun x => ?_
    refine Yields.bind (fun s s' hs xs hxs => hxs.imp fun _ _ hx => hx.of_extends hs) (ih hfs.2) fun xs => ?_
    exact Yields.pure fun s _ hxs hx => .cons hx hxs

private theorem compileFunction_yields {f : Function} (hresult : Reaches l start .output file f.result)
    (harguments : ∀ a ∈ f.arguments, Reaches l start .input file (.field a)) :
    Yields I (compileFunction file f) fun s x => s.TellsFunction l file f x := by
  unfold compileFunction
  refine Yields.bind (tellsType_stable .output file _) (compileType_yields hI hresult) fun g => ?_
  refine Yields.bind (fun s s' hs xs hxs => hxs.imp fun _ _ hx => hx.of_extends hs)
    (compileInputFields_yields hI harguments) fun xs => ?_
  exact Yields.bind_ofExcept fun _ _ => Yields.pure fun s _ hxs hg => ⟨rfl, hg, ⟨xs, hxs, rfl⟩, rfl⟩

private theorem structInputFields_yields {struct : Idl.Struct} (name : String)
    (hm : Meets l start .input (.struct file struct)) :
    Yields I (structInputFields file struct)
      fun s xs => s.TellsFields l (.input name file struct) (.input xs) := by
  unfold structInputFields
  split
  · rename_i hempty
    exact Yields.pure fun s _ => GathersStruct.none (List.isEmpty_iff.1 hempty)
  · rename_i hempty
    refine Yields.bind (fun s s' hs xs hxs => hxs.imp fun _ _ hx => hx.of_extends hs)
      (compileInputFields_yields hI fun f hf => .field_of_meets hm hf) fun xs => Yields.pure fun s _ hxs => ?_
    exact GathersStruct.fields (mt List.isEmpty_iff.2 hempty) ⟨xs, hxs, rfl⟩

private theorem structOutputFields_yields {struct : Idl.Struct} (name : String)
    (hm : Meets l start .output (.struct file struct)) :
    Yields I (structOutputFields file struct)
      fun s xs => s.TellsFields l (.output name file struct) (.output xs) := by
  unfold structOutputFields
  split
  · rename_i hempty
    exact Yields.pure fun s _ => GathersStruct.none (List.isEmpty_iff.1 hempty)
  · rename_i hempty
    refine Yields.bind (fun s s' hs xs hxs => hxs.imp fun _ _ hx => hx.of_extends hs)
      (compileOutputFields_yields hI fun f hf => .field_of_meets hm hf) fun xs => Yields.pure fun s _ hxs => ?_
    exact GathersStruct.fields (mt List.isEmpty_iff.2 hempty) ⟨xs, hxs, rfl⟩

/-- The fields of a node that has been made for something that is reached. -/
theorem nodeFields_yields {d : Direction} {core : Core} {key : NodeKey} {node : Node} (hm : Meets l start d core)
    (hmade : core.IsMadeAs enumsAsInts d key node) :
    Yields I (nodeFields node) fun s fields => s.TellsFields l node fields := by
  cases hmade with
  | @input name file struct =>
    refine Yields.bind (fun s s' hs xs hxs => hxs.of_extends hs) (Yields.adapt _ (structInputFields_yields hI name hm))
      fun xs => ?_
    exact Yields.bind_ofExcept fun _ _ => Yields.pure fun s _ hxs => hxs
  | @output name file struct =>
    refine Yields.bind (fun s s' hs xs hxs => hxs.of_extends hs) (Yields.adapt _ (structOutputFields_yields hI name hm))
      fun xs => ?_
    exact Yields.bind_ofExcept fun _ _ => Yields.pure fun s _ hxs => hxs
  | enumeration => exact Yields.bind_ofExcept fun _ _ => Yields.pure fun s _ => trivial

end

/-! ### What is told in a run -/

/-- The type expressions that the work for a request begins with. -/
inductive Request.Begins : Request → Direction → Path → TypeExpr → Prop
  | compile (d : Direction) (file : Path) (t : TypeExpr) : Begins (.compile d file t) d file t
  | result (file : Path) (f : Function) : Begins (.function file f) .output file f.result
  | argument (file : Path) (f : Function) {a : Field} :
      a ∈ f.arguments → Begins (.function file f) .input file (.field a)

variable (l) in
/-- What is told in answer to a request. -/
inductive Session.Tells (s : Session) : Request → Reply → Prop
  | compile {d : Direction} {file : Path} {t : TypeExpr} {g : GraphType} :
      s.TellsType l d file t g → Tells s (.compile d file t) (.type g)
  | function {file : Path} {f : Function} {x : OutputField} :
      s.TellsFunction l file f x → Tells s (.function file f) (.function x)
  | fields {id : Nat} {node : Node} {fields : Fields} :
      s.node? id = some node → s.TellsFields l node fields → Tells s (.fields id) (.fields fields)

/-- The answer to a request is what is told of what the library says. -/
theorem work_yields {q : Request} (hq : ∀ {d file t}, q.Begins d file t → start d file t) :
    Yields (Session.Traces l enumsAsInts naming start) q.work fun s a => s.Tells l q a := by
  cases q with
  | compile d file t =>
    refine Yields.adapt _ (Yields.bind (tellsType_stable d file t)
      (compileType_yields findsNodes_traces (.start (hq (.compile ..)))) ?_)
    exact fun g => Yields.pure fun s _ hg => .compile hg
  | function file f =>
    refine Yields.adapt _ (Yields.bind (fun s s' hs x hx => hx.of_extends hs)
      (compileFunction_yields findsNodes_traces (.start (hq (.result ..))) fun a ha =>
        .start (hq (.argument _ _ ha))) ?_)
    exact fun x => Yields.pure fun s _ hx => .function hx
  | fields id =>
    intro s s' a hs h
    unfold Request.work at h
    rw [Work.run_bind_of_ok (Work.run_get s)] at h
    cases hn : s.node? id with
    | none =>
      rw [hn] at h
      cases h
    | some node =>
      rw [hn] at h
      obtain ⟨entry, hentry, rfl⟩ := Option.map_eq_some_iff.1 hn
      obtain ⟨d, core, hm, hmade⟩ := hs.made entry.1 entry.2 (List.mem_of_getElem? hentry)
      have hyields : Yields (Session.Traces l enumsAsInts naming start)
          (ExceptT.adapt Refusal.fields do return Reply.fields (← nodeFields entry.2))
          fun s a => s.node? id = some entry.2 → s.Tells l (.fields id) a := by
        refine Yields.adapt _ (Yields.bind (fun s s' hs x hx => hx.of_extends hs)
          (nodeFields_yields findsNodes_traces hm hmade) ?_)
        exact fun fields => Yields.pure fun s _ hfields hn => .fields hn hfields
      obtain ⟨hgrows, hs', ha⟩ := hyields s s' a hs h
      exact ⟨hgrows, hs', ha (hgrows.node? hn)⟩

end ThriftGateway.Graph
