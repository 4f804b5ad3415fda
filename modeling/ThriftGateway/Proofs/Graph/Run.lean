import ThriftGateway.Proofs.Graph.Moving

/-!
# Runs of a session

A run loads files, compiles types and functions, and reads the fields of nodes, in any order and with any outcome.  The
main result is `answers_agree`: in every run, types that end at declarations have the same node inside exactly if
they end at the same declaration, and for a struct, are seen from the same direction; the names of nodes differ and none
is reserved; and a request that has been answered is answered in the same way for ever, without a new node or name.
-/

namespace ThriftGateway.Graph

open Idl (Function TypeExpr)
open Source (FileTree Library LoadError Path Resolved)

/-- What can be asked of a session. -/
inductive Request where
  | compile (direction : Direction) (file : Path) (t : TypeExpr)
  | function (file : Path) (f : Function)
  /-- The fields of the node with a number. -/
  | fields (id : Nat)

/-- An answer to a request. -/
inductive Reply where
  | type (t : GraphType)
  | function (f : OutputField)
  | fields (fields : Fields)

/-- Why a request is not answered. -/
inductive Refusal where
  | compile (error : CompileError)
  | fields (error : FieldsError)
  | noNode (id : Nat)

/-- The work for a request. -/
def Request.work : Request → Work Refusal Reply
  | .compile direction file t =>
    ExceptT.adapt Refusal.compile do return .type (← compileType (some direction) file t)
  | .function file f => ExceptT.adapt Refusal.compile do return .function (← compileFunction file f)
  | .fields id => do
    match (← get).node? id with
    | none => throw (.noNode id)
    | some node => ExceptT.adapt Refusal.fields do return .fields (← nodeFields node)

/-- One step of a run. -/
inductive Step where
  /-- Loads files, as the files are then. -/
  | load (tree : FileTree) (paths : List Path)
  | ask (q : Request)

namespace Session

/-- The session after a step, whether it succeeds or fails. -/
def step (s : Session) : Step → Session
  | .load tree paths => (s.load tree paths).1
  | .ask q => (Work.run q.work s).2

/-- The session after a run. -/
def steps (s : Session) (run : List Step) : Session := run.foldl step s

/-- Somewhere in the run, the request is made and gets the answer. -/
def Answers (s : Session) (run : List Step) (q : Request) (a : Reply) : Prop :=
  ∃ before after, run = before ++ .ask q :: after ∧ (Work.run q.work (s.steps before)).1 = .ok a

variable {s s' : Session}

theorem Extends.node? (h : s.Extends s') {id : Nat} {node : Node} (hn : s.node? id = some node) :
    s'.node? id = some node := by
  obtain ⟨more, hmore⟩ := h.nodes
  unfold Session.node? at hn ⊢
  rw [Option.map_eq_some_iff] at hn ⊢
  obtain ⟨entry, hentry, rfl⟩ := hn
  refine ⟨entry, ?_, rfl⟩
  rw [hmore, List.getElem?_append_left (List.getElem?_eq_some_iff.1 hentry).1]
  exact hentry

theorem work_steady (q : Request) : Steady q.work := by
  cases q with
  | compile direction file t =>
    exact Steady.adapt _ ((compileType_steady _ _ _).bind fun _ => Steady.pure _)
  | function file f => exact Steady.adapt _ ((compileFunction_steady _ _).bind fun _ => Steady.pure _)
  | fields id =>
    refine Steady.read (fun s => ?_) fun s s' hs a x y h => ?_
    · split
      · exact Steady.throw _
      · exact Steady.adapt _ ((nodeFields_steady _).bind fun _ => Steady.pure _)
    · cases hn : s.node? id with
      | none =>
        rw [hn] at h
        cases h
      | some node =>
        rw [hs.node? hn]
        rw [hn] at h
        exact h

/-! ### What a step preserves -/

theorem extends_step (s : Session) (step : Step) : s.Extends (s.step step) := by
  cases step with
  | load tree paths => exact ⟨rfl, Source.Library.extends_loadPending tree s.library paths, [], by simp [step, load]⟩
  | ask q => exact (work_steady q).grows s

private theorem step_distinct (hs : s.Distinct) (step : Step) : (s.step step).Distinct := by
  cases step with
  | load tree paths => exact ⟨hs.nodup, hs.used, hs.reserved⟩
  | ask q => exact (work_steady q).distinct s hs

/-! ### What a run preserves -/

@[simp] theorem steps_nil (s : Session) : s.steps [] = s := rfl

@[simp] theorem steps_cons (s : Session) (step : Step) (run : List Step) :
    s.steps (step :: run) = (s.step step).steps run := rfl

private theorem steps_append (s : Session) (before after : List Step) :
    s.steps (before ++ after) = (s.steps before).steps after := by
  simp [steps]

private theorem extends_steps (s : Session) (run : List Step) : s.Extends (s.steps run) := by
  induction run generalizing s with
  | nil => exact Extends.refl s
  | cons step run ih => exact (extends_step s step).trans (ih (s.step step))

private theorem steps_distinct (hs : s.Distinct) (run : List Step) : (s.steps run).Distinct := by
  induction run generalizing s with
  | nil => exact hs
  | cons step run ih => exact ih (step_distinct hs step)

/-- A request that has been answered is answered in the same way from then on, and this changes nothing. -/
theorem Answers.run {run : List Step} {q : Request} {a : Reply} (h : s.Answers run q a) :
    Work.run q.work (s.steps run) = (.ok a, s.steps run) := by
  obtain ⟨before, after, rfl, ha⟩ := h
  have hfirst : Work.run q.work (s.steps before) = (.ok a, (s.steps before).step (.ask q)) := Prod.ext ha rfl
  have hrest : s.steps (before ++ .ask q :: after) = ((s.steps before).step (.ask q)).steps after := by
    rw [steps_append]
    rfl
  rw [hrest]
  exact (work_steady q).again hfirst (extends_steps _ after)

/-- A type that has been compiled and ends at a declaration has the node of the declaration inside. -/
theorem Answers.find? {run : List Step} {direction : Direction} {file : Path} {t : TypeExpr} {g : GraphType}
    (h : s.Answers run (.compile direction file t) (.type g)) (hs : s.enumsAsInts = false) {r : Resolved}
    (hr : Ends (s.steps run).library file t r) :
    ∃ id, g.innermost = .node id ∧ (s.steps run).find? (keyOf direction r) = some id := by
  have hrun := h.run
  unfold Request.work at hrun
  rw [Work.run_adapt] at hrun
  generalize hw : Work.run _ _ = w at hrun
  obtain ⟨w, s'⟩ := w
  cases w with
  | error e => cases hrun
  | ok a =>
    cases hrun
    obtain ⟨g', s'', hg, ha⟩ := Work.run_bind_eq_ok.1 hw
    cases ha
    exact find?_of_compileType hr ((extends_steps s run).enumsAsInts.trans hs) hg

/-- In every run of a fresh session that keeps enumerations, whatever names types are given: compiled types that end at
declarations have the same node inside exactly if the declarations have the same file and name and, for a struct, the
directions are the same; no two nodes have one name, and none has a reserved name; a request that has been answered gets
the same answer again and changes nothing, nor does loading make nodes or give out names. -/
theorem answers_agree (naming : TypeNaming) (run : List Step) :
    let s := (fresh false naming).steps run
    (∀ (direction direction' : Direction) (file file' : Path) (t t' : TypeExpr) (g g' : GraphType) (r r' : Resolved),
      (fresh false naming).Answers run (.compile direction file t) (.type g) →
      (fresh false naming).Answers run (.compile direction' file' t') (.type g') →
      Ends s.library file t r → Ends s.library file' t' r' →
      (g.innermost = g'.innermost ↔
        r.file = r'.file ∧ r.declaration.name = r'.declaration.name ∧
          ((∃ struct, r.declaration = .struct struct) → direction = direction'))) ∧
    s.nodeNames.Nodup ∧ (∀ name ∈ reservedNames, name ∉ s.nodeNames) ∧
    (∀ q a, (fresh false naming).Answers run q a → Work.run q.work s = (.ok a, s)) ∧
    ∀ tree paths, (s.load tree paths).1.nodes = s.nodes ∧ (s.load tree paths).1.names = s.names := by
  intro s
  have hdistinct : s.Distinct := steps_distinct (fresh_distinct false naming) run
  refine ⟨?_, hdistinct.nodup, fun name hn => (hdistinct.reserved name hn).2, fun q a h => h.run,
    fun tree paths => ⟨rfl, rfl⟩⟩
  intro direction direction' file file' t t' g g' r r' h h' hr hr'
  obtain ⟨id, hg, hid⟩ := h.find? rfl hr
  obtain ⟨id', hg', hid'⟩ := h'.find? rfl hr'
  rw [hg, hg', NamedType.node.injEq, ← keyOf_eq_iff hr hr']
  constructor
  · rintro rfl
    exact find?_inj hid hid'
  · intro hkey
    rw [hkey, hid', Option.some.injEq] at hid
    exact hid.symm

section Compiled

variable {direction : Direction} {file f : Path} {t : TypeExpr} {struct : Idl.Struct}

/-- A type that stands for a struct has inside the node of the struct. -/
theorem run_compile_of_nodeFor (ht : expandType s.library [] file t = .ok (.bare (.struct f struct))) {id : Nat}
    (hid : Work.run (nodeFor ⟨f.written, struct.name, some direction⟩ (makeStruct (some direction) f struct)) s =
      (.ok id, s')) :
    Work.run (Request.compile direction file t).work s = (.ok (.type (.named (.node id))), s') := by
  unfold Request.work
  rw [Work.run_adapt, Work.run_bind_of_ok (run_compileType_of_nodeFor ht hid)]
  rfl

/-- A struct without a node gets one, if the preferred name is free and can name a type. -/
private theorem run_compile_of_free (direction : Direction)
    (ht : expandType s.library [] file t = .ok (.bare (.struct f struct)))
    (hf : s.find? ⟨f.written, struct.name, some direction⟩ = none) (hs : s.isSealed = false) {name : String}
    (hn : s.naming ⟨f.written, struct.name, direction = .input, false⟩ = name) (hu : s.names.isUsed name = false)
    (hr : isReservedType name = false) (hc : checkName name = .ok ()) :
    ∃ node : Node, node.form? = some (direction, f, struct) ∧
      Work.run (Request.compile direction file t).work s =
        (.ok (.type (.named (.node s.nodes.length))),
          { s with
            names := { s.names with used := name :: s.names.used }
            nodes := s.nodes ++ [(⟨f.written, struct.name, some direction⟩, node)] }) := by
  subst hn
  cases direction with
  | input =>
    have hm := Work.run_bind_of_ok (k := fun name => pure (Node.input name f struct)) (run_giveName_of_free hu hr hc)
    exact ⟨_, rfl, run_compile_of_nodeFor ht (run_nodeFor_of_make hf hs hm)⟩
  | output =>
    have hm := Work.run_bind_of_ok (k := fun name => pure (Node.output name f struct)) (run_giveName_of_free hu hr hc)
    exact ⟨_, rfl, run_compile_of_nodeFor ht (run_nodeFor_of_make hf hs hm)⟩

end Compiled

/-- A struct and another name for it. -/
def renamed : FileTree where
  working := ⟨["idl"]⟩
  files := [(⟨["idl", "a.thrift"]⟩, Text.encode "struct S {} typedef S T")]

/-- Whether a file declares the struct and its other name, and includes nothing. -/
private def declaresRenamed (d : Idl.Document) : Bool :=
  d.includes.isEmpty &&
    match d.declarationsNamed "S", d.declarationsNamed "T" with
    | [.struct s], [.typedef ⟨_, name, .named _ reference, _⟩] => s.name = "S" ∧ name = "T" ∧ reference = "S"
    | _, _ => false

/-- What the file declares. -/
private theorem exists_renamed : ∃ d struct typedef line,
    renamed.document ⟨["idl", "a.thrift"]⟩ = .ok d ∧ d.includes = [] ∧
      d.declarationsNamed "S" = [.struct struct] ∧ struct.name = "S" ∧
      d.declarationsNamed "T" = [.typedef typedef] ∧ typedef.name = "T" ∧ typedef.target = .named line "S" := by
  obtain ⟨d, hd, hview⟩ := Source.exists_document_of_any (t := renamed) (p := ⟨["idl", "a.thrift"]⟩)
    declaresRenamed (by decide +kernel)
  rw [declaresRenamed, Bool.and_eq_true, List.isEmpty_iff] at hview
  obtain ⟨hi, hview⟩ := hview
  split at hview
  · rename_i s line' name line reference description hs ht
    obtain ⟨hname, rfl, rfl⟩ := of_decide_eq_true hview
    exact ⟨d, s, _, line, hd, hi, hs, hname, ht, rfl, rfl⟩
  · cases hview

/-- In a session without nodes, a struct of that name gets one node for each direction. -/
theorem exists_forms {a : Path} {struct : Idl.Struct} (hname : struct.name = "S")
    (hS : expandType s.library [] a (.named 1 "S") = .ok (.bare (.struct a struct))) (hnaming : s.naming = declaredName)
    (hnodes : s.nodes = []) (hnames : s.names = .fresh) (hsealed : s.isSealed = false) :
    ∃ (s₂ s₃ : Session) (node node' : Node),
      Work.run (Request.compile .input a (.named 1 "S")).work s = (.ok (.type (.named (.node 0))), s₂) ∧
      Work.run (Request.compile .output a (.named 1 "S")).work s₂ = (.ok (.type (.named (.node 1))), s₃) ∧
      node.form? = some (.input, a, struct) ∧ node'.form? = some (.output, a, struct) ∧
      s₃.nodes = [(⟨a.written, "S", some .input⟩, node), (⟨a.written, "S", some .output⟩, node')] ∧
      s₃.library = s.library := by
  have hinput : s.naming ⟨a.written, struct.name, true, false⟩ = "SInput" := by
    rw [hnaming, hname]
    show "S" ++ "Input" = "SInput"
    decide +kernel
  have houtput : s.naming ⟨a.written, struct.name, false, false⟩ = "S" := by
    rw [hnaming, hname]
    rfl
  obtain ⟨node, hform, h₂⟩ := run_compile_of_free .input hS (by simp [Session.find?, hnodes]) hsealed hinput
    (by rw [hnames]; decide +kernel) (by decide +kernel) (by decide +kernel)
  rw [hnodes, hnames] at h₂
  let s₂ : Session := { s with
    names := ⟨"SInput" :: reservedNames, []⟩, nodes := [(⟨a.written, struct.name, some .input⟩, node)] }
  obtain ⟨node', hform', h₃⟩ := run_compile_of_free (s := s₂) .output hS (by simp [s₂, Session.find?]) hsealed
    houtput (show NameTable.isUsed ⟨"SInput" :: reservedNames, []⟩ "S" = false by decide +kernel) (by decide +kernel)
    (by decide +kernel)
  exact ⟨s₂, _, node, node', h₂, h₃, hform, hform', hname ▸ rfl, rfl⟩

/-- In a session without nodes, the struct gets one node for each direction, and its other name has the same one. -/
private theorem exists_runs_renamed {a : Path} {struct : Idl.Struct} (hname : struct.name = "S")
    (hS : expandType s.library [] a (.named 1 "S") = .ok (.bare (.struct a struct)))
    (hT : expandType s.library [] a (.named 1 "T") = .ok (.bare (.struct a struct)))
    (hnaming : s.naming = declaredName) (hnodes : s.nodes = []) (hnames : s.names = .fresh)
    (hsealed : s.isSealed = false) :
    ∃ s₂ s₃ : Session,
      Work.run (Request.compile .input a (.named 1 "S")).work s = (.ok (.type (.named (.node 0))), s₂) ∧
      Work.run (Request.compile .output a (.named 1 "S")).work s₂ = (.ok (.type (.named (.node 1))), s₃) ∧
      Work.run (Request.compile .input a (.named 1 "T")).work s₃ = (.ok (.type (.named (.node 0))), s₃) ∧
      s₃.library = s.library := by
  obtain ⟨s₂, s₃, node, node', h₂, h₃, -, -, hnodes₃, hlibrary⟩ := exists_forms hname hS hnaming hnodes hnames hsealed
  have hfound : s₃.find? ⟨a.written, struct.name, some .input⟩ = some 0 := by
    rw [Session.find?, hnodes₃, hname, List.findIdx?_cons, if_pos (by simp)]
  rw [← hlibrary] at hT
  exact ⟨s₂, s₃, h₂, h₃, run_compile_of_nodeFor hT (run_nodeFor_of_find? hfound), hlibrary⟩

/-- The struct by either name has the same node, and another one from the other direction. -/
theorem answers_agree_renamed :
    let a : Path := ⟨["idl", "a.thrift"]⟩
    let run := [Step.load renamed [a], .ask (.compile .input a (.named 1 "S")),
      .ask (.compile .output a (.named 1 "S")), .ask (.compile .input a (.named 1 "T"))]
    let s := fresh false declaredName
    ∃ g g' g'' : GraphType,
      s.Answers run (.compile .input a (.named 1 "S")) (.type g) ∧
      s.Answers run (.compile .output a (.named 1 "S")) (.type g') ∧
      s.Answers run (.compile .input a (.named 1 "T")) (.type g'') ∧
      g.innermost = g''.innermost ∧ g.innermost ≠ g'.innermost := by
  intro a run s
  obtain ⟨d, struct, typedef, line, hd, hi, hS, hname, hT, htypedef, htarget⟩ := exists_renamed
  obtain ⟨l, hl⟩ : ∃ l : Library, l = ⟨[(a, d)]⟩ := ⟨_, rfl⟩
  have hdocument : l.document? a = some d := by simp [hl, Library.document?]
  have hresolveS : l.resolve "S" a = .ok ⟨a, .struct struct⟩ := Library.resolve_of_plain (by decide) hdocument hS
  have hresolveT : l.resolve "T" a = .ok ⟨a, .typedef typedef⟩ := Library.resolve_of_plain (by decide) hdocument hT
  have hexpandS : ∀ busy line, expandType l busy a (.named line "S") = .ok (.bare (.struct a struct)) := by
    intro busy line
    rw [expandType_of_resolve hresolveS, expandType_struct]
  have hexpandT : expandType l [] a (.named 1 "T") = .ok (.bare (.struct a struct)) := by
    rw [expandType_of_resolve hresolveT, expandType_typedef rfl, htarget, hexpandS]
  have hendS : ∀ line, Ends l a (.named line "S") ⟨a, .struct struct⟩ := fun line => .named hresolveS rfl
  have hendT : Ends l a (.named 1 "T") ⟨a, .struct struct⟩ := .typedef hresolveT (by rw [htarget]; exact hendS line)
  obtain ⟨s₁, hs₁⟩ : ∃ s₁, s₁ = s.step (.load renamed [a]) := ⟨_, rfl⟩
  have hlibrary : s₁.library = l := by
    rw [hs₁, hl]
    show (Source.loadPending renamed .empty [a]).library = _
    rw [Source.loadPending_alone hd hi]
  obtain ⟨s₂, s₃, h₂, h₃, h₄, hlibrary₃⟩ := exists_runs_renamed (s := s₁) hname (by rw [hlibrary, hexpandS])
    (by rw [hlibrary, hexpandT]) (by rw [hs₁]; rfl) (by rw [hs₁]; rfl) (by rw [hs₁]; rfl) (by rw [hs₁]; rfl)
  have hstep₂ : s₁.step (.ask (.compile .input a (.named 1 "S"))) = s₂ := congrArg Prod.snd h₂
  have hstep₃ : s₂.step (.ask (.compile .output a (.named 1 "S"))) = s₃ := congrArg Prod.snd h₃
  have hstep₄ : s₃.step (.ask (.compile .input a (.named 1 "T"))) = s₃ := congrArg Prod.snd h₄
  have hrun : (s.steps run).library = l := by
    rw [steps_cons, ← hs₁, steps_cons, hstep₂, steps_cons, hstep₃, steps_cons, hstep₄, steps_nil, hlibrary₃, hlibrary]
  have ha₂ : s.Answers run (.compile .input a (.named 1 "S")) (.type (.named (.node 0))) := by
    refine ⟨[.load renamed [a]], _, rfl, ?_⟩
    rw [steps_cons, ← hs₁, steps_nil, h₂]
  have ha₃ : s.Answers run (.compile .output a (.named 1 "S")) (.type (.named (.node 1))) := by
    refine ⟨[.load renamed [a], .ask (.compile .input a (.named 1 "S"))], _, rfl, ?_⟩
    rw [steps_cons, ← hs₁, steps_cons, hstep₂, steps_nil, h₃]
  have ha₄ : s.Answers run (.compile .input a (.named 1 "T")) (.type (.named (.node 0))) := by
    refine ⟨[.load renamed [a], .ask (.compile .input a (.named 1 "S")), .ask (.compile .output a (.named 1 "S"))],
      [], rfl, ?_⟩
    rw [steps_cons, ← hs₁, steps_cons, hstep₂, steps_cons, hstep₃, steps_nil, h₄]
  rw [← hrun] at hendS hendT
  obtain ⟨hnodes, -⟩ := answers_agree declaredName run
  refine ⟨_, _, _, ha₂, ha₃, ha₄, ?_, fun h => ?_⟩
  · exact (hnodes _ _ _ _ _ _ _ _ _ _ ha₂ ha₄ (hendS 1) hendT).2 ⟨rfl, rfl, fun _ => rfl⟩
  · have := ((hnodes _ _ _ _ _ _ _ _ _ _ ha₂ ha₃ (hendS 1) (hendS 1)).1 h).2.2 ⟨struct, rfl⟩
    cases this

end Session

end ThriftGateway.Graph
