import ThriftGateway.Proofs.Graph.Orders
import ThriftGateway.Proofs.Source.Plain

/-!
# Nodes of declarations

A session that is only asked about what stands in its documents has nodes of their declarations only, under the keys of
these (`steps_documented`).  A declaration that a reference can mean is the only one of its name in its file, so the
node that is found by its key has been made for it (`Session.Documents.node_of_core`).
-/

namespace ThriftGateway.Graph

open Idl (Declaration Field Function TypeExpr)
open Source (FileTree Library Path)

/-- A declaration of the document that has been read from a file. -/
def Declares (l : Library) (file : Path) (d : Declaration) : Prop :=
  ∃ document, l.document? file = some document ∧ d ∈ document.declarations

section Declares

variable {l l' : Library} {file : Path} {d : Declaration}

private theorem Declares.of_extends (hl : l.Extends l') (h : Declares l file d) : Declares l' file d := by
  obtain ⟨document, hdocument, hd⟩ := h
  exact ⟨document, hl _ _ hdocument, hd⟩

theorem Declares.isPlain (hl : l.IsPlain) (h : Declares l file d) : d.IsPlain := by
  obtain ⟨document, hdocument, hd⟩ := h
  exact (hl _ (Library.mem_of_document? hdocument)).declaration hd

theorem isFlat_of_isPlain (hl : l.IsPlain) : IsFlat l :=
  fun e he _ hd => Declaration.inside_eq_nil ((hl e he).declaration hd)

/-- What is declared under the file and the name of a declaration that is the only one there is that declaration. -/
private theorem StandsAlone.eq_of_declares {file' : Path} {d' : Declaration} (h : StandsAlone l file d)
    (h' : Declares l file' d') (hfile : file'.written = file.written) (hname : d'.name = d.name) :
    file' = file ∧ d' = d := by
  obtain ⟨components⟩ := file
  obtain ⟨components'⟩ := file'
  obtain rfl : components' = components := by simpa [Path.written] using hfile
  obtain ⟨-, document, hdocument, hd⟩ := h
  obtain ⟨document', hdocument', hd'⟩ := h'
  obtain rfl := Option.some.inj (hdocument.symm.trans hdocument')
  have hmem : d' ∈ document.declarationsNamed d.name := List.mem_filter.2 ⟨hd', by simpa using hname⟩
  rw [hd, List.mem_singleton] at hmem
  exact ⟨rfl, hmem⟩

/-- What a type that stands in the documents ends at is declared in them. -/
private theorem declares_of_expandType (hl : l.IsPlain) {t : TypeExpr} (ht : l.States file t) {e : Expansion}
    (he : expandType l [] file t = .ok e) : e.core.Satisfies (Declares l) := by
  refine satisfies_of_expandType (fun reference file r hr => Library.mem_declarations_of_resolve hr)
    (fun file d hd x hx => ?_) (fun x hx => ?_) he
  · rw [Declaration.inside_eq_nil (hd.isPlain hl)] at hx
    cases hx
  · cases ht with
    | plain h =>
      rw [h.inside_eq_nil] at hx
      cases hx
    | @field f h =>
      have hx : x ∈ f.type.inside := f.inside_eq ▸ hx
      rw [h.inside_eq_nil] at hx
      cases hx
    | @declared document d hd hmem =>
      rcases List.mem_cons.1 hx with rfl | hx
      · exact ⟨document, hd, hmem⟩
      · rw [Declaration.inside_eq_nil (Declares.isPlain hl ⟨document, hd, hmem⟩)] at hx
        cases hx

end Declares

/-! ### Sessions with nodes of declarations -/

/-- A session with a library, in which all nodes have been made for declarations of the documents. -/
structure Session.Documents (l : Library) (ints : Bool) (s : Session) : Prop where
  library : s.library = l
  enumsAsInts : s.enumsAsInts = ints
  made : ∀ n ∈ s.nodes, ∃ d core, Core.Satisfies (Declares l) core ∧ core.IsMadeAs ints d n.1 n.2

section Documents

variable {l : Library} {ints : Bool} {s : Session}

/-- The node that is found for a core that references can mean has been made for that core. -/
theorem Session.Documents.node_of_core (hs : s.Documents l ints) {d : Direction} {core : Core}
    (hcore : core.Satisfies (StandsAlone l)) {key : NodeKey} (hkey : core.key? d = some key) {id : Nat}
    (hid : s.find? key = some id) : ∃ node, s.node? id = some node ∧ core.IsMadeAs ints d key node := by
  obtain ⟨node, hnode, hmem⟩ := Session.mem_of_find? hid
  obtain ⟨d', core', hdeclared, hmade⟩ := hs.made _ hmem
  refine ⟨node, hnode, ?_⟩
  have hkey' := hmade.key?
  -- the direction in the key tells whether the core is a struct, and from where it is seen
  cases core with
  | scalar x => cases hkey
  | struct file struct =>
    obtain rfl := Option.some.inj hkey
    cases core' with
    | scalar x => cases hkey'
    | enumeration file' e => cases (NodeKey.mk.inj (Option.some.inj hkey')).2.2
    | struct file' struct' =>
      obtain ⟨hfile, hname, hd⟩ := NodeKey.mk.inj (Option.some.inj hkey')
      obtain ⟨rfl, heq⟩ := StandsAlone.eq_of_declares hcore hdeclared hfile hname
      obtain rfl := Declaration.struct.inj heq
      exact Option.some.inj hd ▸ hmade
  | enumeration file e =>
    obtain rfl := Option.some.inj hkey
    cases core' with
    | scalar x => cases hkey'
    | struct file' struct' => cases (NodeKey.mk.inj (Option.some.inj hkey')).2.2
    | enumeration file' e' =>
      obtain ⟨hfile, hname, -⟩ := NodeKey.mk.inj (Option.some.inj hkey')
      obtain ⟨rfl, heq⟩ := StandsAlone.eq_of_declares hcore hdeclared hfile hname
      obtain rfl := Declaration.enumeration.inj heq
      cases hmade with
      | enumeration hints hmembers => exact .enumeration hints hmembers

/-! ### Compiling -/

/-- The work makes nodes for declarations of the documents only, whether it succeeds or fails. -/
abbrev StaysIn (l : Library) (ints : Bool) {ε α : Type} (w : Work ε α) : Prop :=
  Moves (Keeps (Session.Documents l ints)) w

/-- A node that is made for a declaration of the documents. -/
private theorem nodeFor_staysIn {d : Direction} {core : Core} {key : NodeKey} {make : Compile Node}
    (hm : Names Node.name make)
    (hcore : core.Satisfies (Declares l)) (hmade : Gives make fun node => core.IsMadeAs ints d key node) :
    StaysIn l ints (nodeFor key make) := by
  refine Moves.nodeFor hm hmade (fun s names log hs => ⟨hs.library, hs.enumsAsInts, hs.made⟩)
    fun s names log node _ hnode hs => ⟨hs.library, hs.enumsAsInts, fun n hn => ?_⟩
  rcases List.mem_append.1 hn with hn | hn
  · exact hs.made n hn
  · rw [List.mem_singleton.1 hn]
    exact ⟨d, core, hcore, hnode⟩

private theorem compileCore_staysIn (d : Direction) {core : Core} (hcore : core.Satisfies (Declares l)) :
    StaysIn l ints (compileCore (some d) core) := by
  cases core with
  | scalar x => exact .pure _
  | struct file struct =>
    exact (nodeFor_staysIn (makeStruct_names _ _ _) hcore (makeStruct_gives d file struct)).bind fun _ => .pure _
  | enumeration file e =>
    refine Moves.look fun s hs => ?_
    split
    · exact .pure _
    · rename_i hints
      have hints : ints = false := by rw [← hs.enumsAsInts]; simpa using hints
      have hmade := makeEnumeration_gives hints d file e
      exact (nodeFor_staysIn (makeEnumeration_names _ _) hcore hmade).bind fun _ => .pure _

private theorem compileType_staysIn (hl : l.IsPlain) (d : Direction) {file : Path} {t : TypeExpr}
    (ht : l.States file t) : StaysIn l ints (compileType (some d) file t) := by
  refine Moves.compileType fun s e he hs => ?_
  rw [hs.library] at he
  exact compileCore_staysIn d (declares_of_expandType hl ht he) s hs

/-- The struct of a node is one that the documents declare. -/
theorem Session.Documents.declares_of_form? (hs : s.Documents l ints) {id : Nat} {node : Node}
    (hn : s.node? id = some node) {d : Direction} {file : Path} {struct : Idl.Struct}
    (hform : node.form? = some (d, file, struct)) : Declares l file (.struct struct) := by
  obtain ⟨⟨key, node⟩, hmem, rfl⟩ := Option.map_eq_some_iff.1 hn
  obtain ⟨d', core, hcore, hmade⟩ := hs.made (key, node) (List.mem_of_getElem? hmem)
  change core.IsMadeAs ints d' key node at hmade
  cases hmade <;> cases hform <;> exact hcore

/-- What is asked for stands in the documents: a type as it is written, a field or a declaration, or a function that is
made of types as they are written. -/
def Request.StandsIn (l : Library) : Request → Prop
  | .compile _ file t => l.States file t
  | .function _ f => f.result.IsPlain ∧ ∀ a ∈ f.arguments, a.type.IsPlain
  | .fields _ => True

private theorem work_staysIn (hl : l.IsPlain) {q : Request} (hq : q.StandsIn l) : StaysIn l ints q.work := by
  cases q with
  | compile d file t => exact .adapt _ ((compileType_staysIn hl d hq).bind fun _ => .pure _)
  | function file f =>
    have hf : StaysIn l ints (compileFunction file f) := .compileFunction (compileType_staysIn hl .output (.plain hq.1))
      fun a ha => compileType_staysIn hl .input (.field (hq.2 a ha))
    exact .adapt _ (hf.bind fun _ => .pure _)
  | fields id =>
    intro s hs
    unfold Request.work
    rw [Work.run_bind_of_ok (Work.run_get s)]
    cases hn : s.node? id with
    | none => exact hs
    | some node =>
      have hnode : StaysIn l ints (nodeFields node) := .nodeFields fun d file struct hform f hf =>
        compileType_staysIn hl d (.field ((hs.declares_of_form? hn hform).isPlain hl f hf))
      exact Moves.adapt _ (hnode.bind fun _ => .pure _) s hs

/-! ### Runs -/

/-- Whatever is asked for in the run stands in the documents that are loaded then. -/
def Session.Asks (s : Session) (run : List Step) : Prop :=
  ∀ before q after, run = before ++ .ask q :: after → q.StandsIn (s.steps before).library

private theorem Session.Asks.cons {x : Step} {run : List Step} (h : s.Asks (x :: run)) :
    (∀ q, x = .ask q → q.StandsIn s.library) ∧ (s.step x).Asks run := by
  refine ⟨fun q hx => h [] q run (by rw [hx]; rfl), fun before q after hrun => ?_⟩
  exact h (x :: before) q after (by rw [hrun]; rfl)

/-- A session whose documents are read from files and whose nodes are of their declarations. -/
def Session.IsDocumented (s : Session) : Prop := s.library.IsPlain ∧ s.Documents s.library s.enumsAsInts

private theorem step_documented (hs : s.IsDocumented) {x : Step} (hx : ∀ q, x = .ask q → q.StandsIn s.library) :
    (s.step x).IsDocumented := by
  obtain ⟨hplain, hnodes⟩ := hs
  cases x with
  | load tree paths =>
    refine ⟨Source.isPlain_loadPending hplain, rfl, rfl, fun n hn => ?_⟩
    obtain ⟨d, core, hcore, hmade⟩ := hnodes.made n hn
    refine ⟨d, core, ?_, hmade⟩
    have hextends := Source.Library.extends_loadPending tree s.library paths
    cases core with
    | scalar x => trivial
    | struct | enumeration => exact Declares.of_extends hextends hcore
  | ask q =>
    have hs' := work_staysIn hplain (hx q rfl) s hnodes
    have hlibrary : (s.step (.ask q)).library = s.library := hs'.library
    have hints : (s.step (.ask q)).enumsAsInts = s.enumsAsInts := hs'.enumsAsInts
    unfold Session.IsDocumented
    rw [hlibrary, hints]
    exact ⟨hplain, hs'⟩

/-- If a session that has been kept to its documents is only asked about what stands in them, it goes on to be so. -/
theorem steps_documented (hs : s.IsDocumented) {run : List Step} (hrun : s.Asks run) : (s.steps run).IsDocumented := by
  induction run generalizing s with
  | nil => exact hs
  | cons x run ih =>
    obtain ⟨hx, hrun⟩ := hrun.cons
    exact ih (step_documented hs hx) hrun

theorem fresh_documented (enumsAsInts : Bool) (naming : TypeNaming) : (Session.fresh enumsAsInts naming).IsDocumented :=
  ⟨Source.empty_isPlain, rfl, rfl, fun _ hn => (List.not_mem_nil hn).elim⟩

end Documents

end ThriftGateway.Graph
