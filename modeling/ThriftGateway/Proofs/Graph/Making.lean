import Mathlib.Data.List.Nodup
import ThriftGateway.Proofs.Graph.Side
import ThriftGateway.Proofs.Idl.Nesting

/-!
# Which nodes are made

Compiling makes nodes of known declarations only, and no two for one declaration and direction
(`compileType_makes`, `nodeFields_makes`).  So it makes at most two nodes for each struct and one for each enumeration
(`Session.Grown.length_le`).
-/

namespace ThriftGateway.Graph

open Idl (Declaration Field Function TypeExpr)
open Source (Library Path)

variable {ε δ α β : Type} {all : List (Path × Declaration)}

/-! ### Nodes of declarations -/

/-- The keys of the nodes that a declaration of a file can have: a struct one for each direction, an enumeration one. -/
def sidedKeys (e : Path × Declaration) : List NodeKey :=
  match e.2 with
  | .struct s => [⟨e.1.written, s.name, some .input⟩, ⟨e.1.written, s.name, some .output⟩]
  | .enumeration x => [⟨e.1.written, x.name, none⟩]
  | .typedef _ => []

/-- Whether a declaration consists of fields. -/
def isStruct : Declaration → Bool
  | .struct _ => true
  | .enumeration _ | .typedef _ => false

/-- Whether a declaration is an enumeration. -/
def isEnumeration : Declaration → Bool
  | .enumeration _ => true
  | .struct _ | .typedef _ => false

private theorem length_sidedKeys (all : List (Path × Declaration)) :
    (all.flatMap sidedKeys).length = 2 * all.countP (isStruct ·.2) + all.countP (isEnumeration ·.2) := by
  induction all with
  | nil => rfl
  | cons e all ih =>
    obtain ⟨file, d⟩ := e
    rw [List.flatMap_cons, List.length_append, ih, List.countP_cons, List.countP_cons]
    cases d with
    | struct s =>
      simp [sidedKeys, isStruct, isEnumeration]
      omega
    | enumeration x =>
      simp [sidedKeys, isStruct, isEnumeration]
      omega
    | typedef t => simp [sidedKeys, isStruct, isEnumeration]

/-- With keys of their own, there are at most two nodes for each struct and one for each enumeration. -/
theorem length_le_of_sidedKeys {added : List (NodeKey × Node)} (hnodup : (added.map Prod.fst).Nodup)
    (h : ∀ n ∈ added, n.1 ∈ all.flatMap sidedKeys) :
    added.length ≤ 2 * all.countP (isStruct ·.2) + all.countP (isEnumeration ·.2) := by
  have hsub : added.map Prod.fst ⊆ all.flatMap sidedKeys := by
    intro k hk
    obtain ⟨n, hn, rfl⟩ := List.mem_map.1 hk
    exact h n hn
  have hle := (List.subperm_of_subset hnodup hsub).length_le
  rwa [List.length_map, length_sidedKeys] at hle

/-- The declarations have with them those inside of them, those of the documents, and those inside of nodes. -/
structure Session.Within (all : List (Path × Declaration)) (s : Session) : Prop where
  closed : ∀ e ∈ all, ∀ d ∈ e.2.inside, (e.1, d) ∈ all
  documents : ∀ e ∈ s.library.entries, ∀ d ∈ e.2.declarations, (e.1, d) ∈ all
  nodes : ∀ n ∈ s.nodes, ∀ e ∈ n.2.inside, e ∈ all

/-- All that types in a session can end at is within what the session declares. -/
theorem Session.within_declarations (s : Session) : s.Within s.declarations where
  closed := by
    rintro ⟨file, x⟩ he d hd
    rcases List.mem_append.1 he with he | he
    · refine List.mem_append_left _ ?_
      obtain ⟨entry, hentry, he⟩ := List.mem_flatMap.1 he
      obtain ⟨y, hy, he⟩ := List.mem_flatMap.1 he
      obtain ⟨x', hx', ⟨⟩⟩ := List.mem_map.1 he
      refine List.mem_flatMap.2 ⟨entry, hentry, List.mem_flatMap.2 ⟨y, hy, List.mem_map.2 ⟨d, ?_, rfl⟩⟩⟩
      exact TypeExpr.inside_trans (.declared y) x hx' d hd
    · refine List.mem_append_right _ ?_
      obtain ⟨⟨key, node⟩, hnode, he⟩ := List.mem_flatMap.1 he
      refine List.mem_flatMap.2 ⟨⟨key, node⟩, hnode, ?_⟩
      cases node with
      | input _ file struct | output _ file struct =>
        obtain ⟨x', hx', ⟨⟩⟩ := List.mem_map.1 he
        exact List.mem_map.2 ⟨d, Declaration.inside_trans (.struct struct) x hx' d hd, rfl⟩
      | enumeration | foreign => cases he
  documents e he d hd := List.mem_append_left _ (List.mem_flatMap.2 ⟨e, he, List.mem_flatMap.2 ⟨d, hd,
    List.mem_map.2 ⟨d, List.mem_cons_self, rfl⟩⟩⟩)
  nodes n hn e he := List.mem_append_right _ (List.mem_flatMap.2 ⟨n, hn, he⟩)

/-- A later session: its further nodes are of the declarations, and each has a key of its own. -/
structure Session.Grown (all : List (Path × Declaration)) (s s' : Session) : Prop where
  library : s'.library = s.library
  nodes : ∃ added, s'.nodes = s.nodes ++ added ∧ (added.map Prod.fst).Nodup ∧
    (∀ n ∈ added, n.1 ∉ s.nodes.map Prod.fst) ∧
    ∀ n ∈ added, n.1 ∈ all.flatMap sidedKeys ∧ ∀ e ∈ n.2.inside, e ∈ all

namespace Session

variable {s s' s'' : Session}

theorem Grown.of_nodes_eq (hlibrary : s'.library = s.library) (hnodes : s'.nodes = s.nodes) : s.Grown all s' :=
  ⟨hlibrary, [], by rw [hnodes, List.append_nil], List.nodup_nil, nofun, nofun⟩

theorem Grown.refl (s : Session) : s.Grown all s := .of_nodes_eq rfl rfl

theorem Grown.trans (h : s.Grown all s') (h' : s'.Grown all s'') : s.Grown all s'' := by
  obtain ⟨added, hadded, hnodup, hnew, hof⟩ := h.nodes
  obtain ⟨added', hadded', hnodup', hnew', hof'⟩ := h'.nodes
  have hkeys : ∀ n ∈ added', n.1 ∉ s.nodes.map Prod.fst ∧ n.1 ∉ added.map Prod.fst := by
    intro n hn
    have := hnew' n hn
    rwa [hadded, List.map_append, List.mem_append, not_or] at this
  refine ⟨h'.library.trans h.library, added ++ added', by rw [hadded', hadded, List.append_assoc], ?_, ?_, ?_⟩
  · rw [List.map_append, List.nodup_append]
    refine ⟨hnodup, hnodup', fun k hk k' hk' heq => ?_⟩
    obtain ⟨n, hn, rfl⟩ := List.mem_map.1 hk'
    exact (hkeys n hn).2 (heq ▸ hk)
  · exact fun n hn => (List.mem_append.1 hn).elim (hnew n) fun hn => (hkeys n hn).1
  · exact fun n hn => (List.mem_append.1 hn).elim (hof n) (hof' n)

theorem Within.of_grown (h : s.Within all) (hs : s.Grown all s') : s'.Within all where
  closed := h.closed
  documents := by
    rw [hs.library]
    exact h.documents
  nodes := by
    obtain ⟨added, hadded, -, -, hof⟩ := hs.nodes
    rw [hadded]
    exact fun n hn => (List.mem_append.1 hn).elim (h.nodes n) fun hn => (hof n hn).2

theorem Grown.length_le (h : s.Grown all s') :
    s'.nodes.length ≤ s.nodes.length + 2 * all.countP (isStruct ·.2) + all.countP (isEnumeration ·.2) := by
  obtain ⟨added, hadded, hnodup, -, hof⟩ := h.nodes
  have hle := length_le_of_sidedKeys hnodup fun n hn => (hof n hn).1
  rw [hadded, List.length_append]
  omega

end Session

/-- If the session knew only the declarations, it has grown by nodes of them. -/
def GrownWithin (all : List (Path × Declaration)) (s s' : Session) : Prop := s.Within all → s.Grown all s'

instance : IsMove (GrownWithin all) where
  refl s _ := .refl s
  trans h h' hs := (h hs).trans (h' (hs.of_grown (h hs)))

/-- The work makes nodes of the declarations only, each under a key of its own, whether it succeeds or fails. -/
abbrev Makes (all : List (Path × Declaration)) (w : Work ε α) : Prop := Moves (GrownWithin all) w

namespace Makes

/-- Work that begins with looking at the session, of which it may be known what is within the declarations. -/
theorem look {k : Session → Work ε α} (hk : ∀ s : Session, s.Within all → Makes all (k s)) : Makes all (get >>= k) :=
  fun s hs => hk s hs s hs

theorem close : Makes all (modify Session.close : Work ε Unit) := fun _ _ => .of_nodes_eq rfl rfl

end Makes

/-- A core that is none of a declaration, or of one of the declarations. -/
def Core.IsOf (all : List (Path × Declaration)) : Core → Prop
  | .scalar _ => True
  | .struct file s => (file, .struct s) ∈ all
  | .enumeration file e => (file, .enumeration e) ∈ all

/-- A core that is none of a declaration, or of one with a property. -/
def Core.Satisfies (P : Path → Declaration → Prop) : Core → Prop
  | .scalar _ => True
  | .struct file s => P file (.struct s)
  | .enumeration file e => P file (.enumeration e)

/-- What a type stands for has a property that the declarations inside of the type have, those that references mean, and
those inside of any that has it. -/
theorem satisfies_of_expandType {l : Library} {P : Path → Declaration → Prop}
    (hreferences : ∀ reference file r, l.resolve reference file = .ok r → P r.file r.declaration)
    (hclosed : ∀ file d, P file d → ∀ x ∈ d.inside, P file x) {busy : List (Path × String)} {file : Path} {t : TypeExpr}
    (ht : ∀ d ∈ t.inside, P file d) {e : Expansion} (h : expandType l busy file t = .ok e) : e.core.Satisfies P := by
  induction busy, file, t using expansion_induction l generalizing e with
  | base =>
    rw [expandType] at h
    split at h <;> cases h
    trivial
  | list busy file line element ih =>
    rw [expandType_list, map_eq_ok] at h
    obtain ⟨a, ha, rfl⟩ := h
    have hcore := ih ht ha
    exact hcore
  | map | set =>
    rw [expandType] at h
    cases h
    trivial
  | field busy file f ih =>
    rw [expandType_field, map_eq_ok] at h
    obtain ⟨a, ha, rfl⟩ := h
    have hcore : (a.inField f).core = a.core := by
      unfold Expansion.inField
      split <;> rfl
    rw [hcore]
    exact ih (fun d hd => ht d (show d ∈ f.inside from f.inside_eq ▸ hd)) ha
  | struct busy file x =>
    rw [expandType_struct] at h
    cases h
    exact ht _ List.mem_cons_self
  | enumeration busy file x =>
    rw [expandType_enumeration] at h
    cases h
    exact ht _ List.mem_cons_self
  | cycle busy file d hb =>
    rw [expandType_cycle hb] at h
    cases h
  | typedef busy file d hb ih =>
    rw [expandType_typedef hb] at h
    have hinside : (Declaration.typedef d).inside = d.target.inside := d.inside_eq
    exact ih (fun x hx => ht x (List.mem_cons_of_mem _ (hinside ▸ hx))) h
  | unresolved busy file line reference error hr =>
    rw [expandType_of_unresolved hr] at h
    cases h
  | named busy file line reference r hr ih =>
    rw [expandType_of_resolve hr] at h
    have hr' := hreferences _ _ _ hr
    exact ih (fun d hd => (List.mem_cons.1 hd).elim (fun heq => heq ▸ hr') (hclosed _ _ hr' d)) h
  | void | other =>
    rw [expandType] at h
    cases h

/-- What a type stands for is of the declarations, if what is inside of the type is. -/
private theorem isOf_of_expandType {s : Session} (hs : s.Within all) {busy : List (Path × String)} {file : Path}
    {t : TypeExpr}
    (ht : ∀ d ∈ t.inside, (file, d) ∈ all) {e : Expansion} (h : expandType s.library busy file t = .ok e) :
    e.core.IsOf all := by
  have hsatisfies : e.core.Satisfies fun file d => (file, d) ∈ all := by
    refine satisfies_of_expandType (fun reference file r hr => ?_) (fun file d hd => hs.closed _ hd) ht h
    obtain ⟨document, hdocument, hn⟩ := Library.document_of_resolve hr
    have hmem : r.declaration ∈ document.declarationsNamed r.declaration.name := by rw [hn]; simp
    exact hs.documents _ (Library.mem_of_document? hdocument) _ (List.mem_filter.1 hmem).1
  revert hsatisfies
  cases e.core <;> exact id

/-! ### Compiling -/

/-- A node that is made has one of the keys of a declaration, and what is inside of it is inside of the declaration. -/
private theorem nodeFor_makes {key : NodeKey} {make : Compile Node} (hm : Names Node.name make)
    (hkey : key ∈ all.flatMap sidedKeys) (hinside : Gives make fun node => ∀ e ∈ node.inside, e ∈ all) :
    Makes all (nodeFor key make) := by
  refine Moves.nodeFor hm hinside (fun s names log _ => .of_nodes_eq rfl rfl) fun s names log node hf hnode _ => ?_
  have hnew : key ∉ s.nodes.map Prod.fst := by
    rw [Session.find?, List.findIdx?_eq_none_iff] at hf
    intro hmem
    obtain ⟨n, hn, heq⟩ := List.mem_map.1 hmem
    exact absurd (hf n hn) (by simpa using heq)
  refine ⟨rfl, [(key, node)], rfl, List.nodup_singleton key, fun n hn => ?_, fun n hn => ?_⟩
  · rw [List.mem_singleton.1 hn]
    exact hnew
  · rw [List.mem_singleton.1 hn]
    exact ⟨hkey, hnode⟩

private theorem compileCore_makes (direction : Direction) {core : Core}
    (hclosed : ∀ e ∈ all, ∀ d ∈ e.2.inside, (e.1, d) ∈ all)
    (hcore : core.IsOf all) : Makes all (compileCore (some direction) core) := by
  cases core with
  | scalar x => exact Moves.pure _
  | struct file struct =>
    have hinside : ∀ e ∈ struct.inside.map (file, ·), e ∈ all := by
      intro e he
      obtain ⟨d, hd, rfl⟩ := List.mem_map.1 he
      exact hclosed _ hcore d hd
    have hkey : (⟨file.written, struct.name, some direction⟩ : NodeKey) ∈ all.flatMap sidedKeys :=
      List.mem_flatMap.2 ⟨_, hcore, by cases direction <;> simp [sidedKeys]⟩
    refine (nodeFor_makes (makeStruct_names _ _ _) hkey ?_).bind fun id => Moves.pure _
    cases direction <;> exact Gives.after fun name => Gives.pure hinside
  | enumeration file e =>
    have hkey : (⟨file.written, e.name, none⟩ : NodeKey) ∈ all.flatMap sidedKeys :=
      List.mem_flatMap.2 ⟨_, hcore, by simp [sidedKeys]⟩
    refine Makes.look fun s _ => ?_
    split
    · exact Moves.pure _
    · refine (nodeFor_makes (makeEnumeration_names _ _) hkey ?_).bind fun id => Moves.pure _
      exact Gives.after fun members => Gives.after fun name => Gives.pure nofun

/-- Compiling a type makes nodes of known declarations, if what is inside of the type is known. -/
theorem compileType_makes (direction : Direction) (file : Path) {t : TypeExpr} (ht : ∀ d ∈ t.inside, (file, d) ∈ all) :
    Makes all (compileType (some direction) file t) :=
  Moves.compileType fun s _ he hs => compileCore_makes direction hs.closed (isOf_of_expandType hs ht he) s hs

private theorem compileField_makes (direction : Direction) (file : Path) {f : Field}
    (h : ∀ d ∈ f.type.inside, (file, d) ∈ all) : Makes all (compileField (some direction) file f) :=
  compileType_makes direction file fun d hd => h d (f.inside_eq ▸ hd)

/-- The declarations inside of the result and the arguments of a function. -/
def declaredBy (f : Function) : List Declaration := f.result.inside ++ Idl.insideAll f.arguments

theorem compileFunction_makes (file : Path) {f : Function} (h : ∀ d ∈ declaredBy f, (file, d) ∈ all) :
    Makes all (compileFunction file f) :=
  Moves.compileFunction (compileType_makes .output file fun d hd => h d (List.mem_append_left _ hd)) fun a ha =>
    compileField_makes .input file fun d hd => h d (List.mem_append_right _ (Idl.mem_insideAll.2 ⟨a, ha, hd⟩))

/-- Reading the fields of a node makes nodes of known declarations, if what is inside of the node is known. -/
theorem nodeFields_makes {node : Node} (h : ∀ e ∈ node.inside, e ∈ all) : Makes all (nodeFields node) := by
  refine Moves.nodeFields fun direction file struct hform f hf => compileField_makes direction file fun d hd => ?_
  have hinside : node.inside = struct.inside.map (file, ·) := by
    cases node <;> cases hform <;> rfl
  have hd : d ∈ struct.inside := struct.inside_eq ▸ Idl.mem_insideAll.2 ⟨f, hf, hd⟩
  exact h _ (hinside ▸ List.mem_map.2 ⟨d, hd, rfl⟩)

end ThriftGateway.Graph
