import ThriftGateway.Proofs.Graph.Side
import ThriftGateway.Proofs.Schema.Assembling

/-!
# The sides of a schema

In every run of a session, which may also assemble schemas, a type that has been compiled for a direction leads only
to types on that side, whenever the fields are read.  So in every schema that is assembled, what takes a value has a
type on the side of arguments, and a field of an object has one on the side of results (`sides_of_turns`).
-/

namespace ThriftGateway.Schema

open Graph (Direction Fields GraphType InputField Leaves NamedType Node NodeKey OutputField QueryNaming Reply Request
  Session Stable TypeNaming Work)
open Idl (Function TypeExpr)
open Source (Library Path)

/-- A type of a schema that can stand where a direction asks for one. -/
def Definition.IsOn (d : Direction) : Definition → Prop
  | .scalar _ | .enumeration .. => True
  | .input .. => d = .input
  | .object .. => d = .output

/-- The fields of a type that give a value. -/
def Definition.outputs : Definition → List OutputField
  | .object _ _ fields => fields
  | .input .. | .scalar _ | .enumeration .. => []

/-- All fields of objects in a schema, those of the root included. -/
def Schema.outputs (s : Schema) : List OutputField := s.definitions.flatMap Definition.outputs

/-! ### Collecting -/

/-- What a reference stands for in a schema is of its kind, and what it refers to in turn is on the proper side. -/
structure IsSided (s : Session) (entry : NamedType × Definition) : Prop where
  /-- If a side asks for the reference, it may ask for what it stands for. -/
  kind : ∀ d, s.IsOn d entry.1 → entry.2.IsOn d
  /-- The reference is known to the session. -/
  known : ∃ d, s.IsOn d entry.1
  inputs : s.AllOn .input InputField.type entry.2.inputs
  outputs : s.AllOn .output OutputField.type entry.2.outputs

theorem IsSided.of_extends {s s' : Session} (h : s.Extends s') {entry : NamedType × Definition}
    (he : IsSided s entry) : IsSided s' entry := by
  obtain ⟨d, hd⟩ := he.known
  refine ⟨fun d' hd' => ?_, ⟨d, hd.of_extends h⟩, fun x hx => (he.inputs x hx).of_extends h,
    fun x hx => (he.outputs x hx).of_extends h⟩
  exact he.kind d' ((Session.isOn_iff_of_extends h hd).1 hd')

/-- What a node is in a schema is sided, if its fields are. -/
private theorem isSided_of_definitionOf {s : Session} {id : Nat} {node : Node} (hn : s.node? id = some node)
    {fields : Fields} (hf : s.FieldsOf node fields) {x : Definition} (h : definitionOf node fields = some x) :
    IsSided s (.node id, x) := by
  have hkind : ∀ d, s.IsOn d (.node id) → node.IsOn d := by
    rintro d ⟨node', hn', hd⟩
    rw [hn] at hn'
    cases hn'
    exact hd
  unfold definitionOf at h
  split at h
  · cases h
    exact ⟨hkind, ⟨.input, _, hn, rfl⟩, (hf .input rfl).2, s.allOn_nil _ _⟩
  · cases h
    obtain ⟨-, houtputs, harguments⟩ := hf .output rfl
    refine ⟨hkind, ⟨.output, _, hn, rfl⟩, fun y hy => ?_, houtputs⟩
    obtain ⟨f, hmem, hy⟩ := List.mem_flatMap.1 hy
    rw [harguments f hmem] at hy
    cases hy
  · cases h
    exact ⟨fun _ _ => trivial, ⟨.input, _, hn, trivial⟩, s.allOn_nil _ _, s.allOn_nil _ _⟩
  · cases h

/-- What a reference stands for, if anything, is sided. -/
private def DefinesSided (t : NamedType) (s : Session) (d : Option Definition) : Prop :=
  ∀ x, d = some x → IsSided s (t, x)

private theorem definesSided_stable (t : NamedType) : Stable (DefinesSided t) :=
  fun _ _ h _ hd x hx => (hd x hx).of_extends h

theorem define_leaves (t : NamedType) : Leaves (define t) (DefinesSided t) := by
  cases t with
  | scalar x =>
    refine Leaves.pure fun s y hy => ?_
    cases hy
    exact ⟨fun _ _ => trivial, ⟨.input, trivial⟩, s.allOn_nil _ _, s.allOn_nil _ _⟩
  | node id =>
    unfold define
    refine Leaves.look fun s₀ => ?_
    split
    · exact Leaves.pure fun s _ x hx => by cases hx
    · rename_i name members description hn
      refine Leaves.pure fun s hs x hx => ?_
      exact isSided_of_definitionOf (hs.node? hn) (show s.FieldsOf _ .none from fun _ _ => trivial) hx
    · rename_i node _ hn
      refine Leaves.bind (Graph.fieldsOf_stable node) (Graph.nodeFields_leaves node) fun fields => ?_
      exact Leaves.pure fun s hf hs x hx => isSided_of_definitionOf (hs.node? hn) hf hx

/-- All types that are collected are sided, if those were that had been met. -/
private theorem collectTypes_leaves (fuel : Nat) (met : List (NamedType × Definition)) (pending : List NamedType) :
    Leaves (collectTypes fuel met pending) fun s types => (∀ e ∈ met, IsSided s e) → ∀ e ∈ types, IsSided s e := by
  induction fuel, met, pending using collectTypes.induct with
  | case1 fuel met =>
    rw [collectTypes_nil]
    exact Leaves.pure fun s h => h
  | case2 fuel met t pending h ih =>
    rw [collectTypes_of_met h]
    exact ih
  | case3 met t pending h =>
    rw [collectTypes_zero h]
    exact Leaves.pure fun s h => h
  | case4 met t pending h fuel ihNone ihSome =>
    rw [collectTypes_succ h]
    refine Leaves.bind (definesSided_stable t) (define_leaves t) fun d => ?_
    cases d with
    | none => exact ihNone.mono fun s types htypes _ => htypes
    | some d =>
      refine (ihSome d).mono fun s types htypes hd hmet => htypes fun e he => ?_
      rcases List.mem_append.1 he with he | he
      · exact hmet e he
      · obtain rfl := List.mem_singleton.1 he
        exact hd d rfl

/-! ### Assembling -/

/-- Among the fields there are none but some of before and such as are on their sides. -/
def AddsOn (fields : List RootField) (s : Session) (rs : List RootField) : Prop :=
  ∀ r ∈ rs, r ∈ fields ∨ s.FunctionOn r.field

private theorem addsOn_stable (fields : List RootField) : Stable (AddsOn fields) :=
  fun _ _ h _ hrs r hr => (hrs r hr).imp_right fun hr => Graph.functionOn_stable _ _ h _ hr

private theorem addRootField_leaves (naming : QueryNaming) (o : Offer) (fields : List RootField) (f : Function) :
    Leaves (addRootField naming o fields f) (AddsOn fields) := by
  have hadd : ∀ query, Leaves (do
      let field ← Graph.compileFunction o.file f
      return Graph.upsert (·.field.name) ⟨{ field with name := query }, ⟨o.name, f, o.hooks f.name⟩⟩ fields)
        (AddsOn fields) := by
    intro query
    refine Leaves.bind Graph.functionOn_stable (Graph.compileFunction_leaves o.file f) fun field =>
      Leaves.pure fun s hfield r hr => ?_
    rcases Graph.mem_of_mem_upsert hr with rfl | hr
    · exact Or.inr hfield
    · exact Or.inl hr
  unfold addRootField
  split
  · exact Leaves.after (Leaves.report _ fun _ => trivial) fun _ => Leaves.pure fun s r hr => Or.inl hr
  · dsimp only
    split
    · exact Leaves.after (Leaves.report _ fun _ => trivial) fun _ => hadd _
    · exact hadd _

theorem addRootFields_leaves (naming : QueryNaming) (fs : List (Offer × Function)) (fields : List RootField) :
    Leaves (addRootFields naming fs fields) (AddsOn fields) := by
  induction fs generalizing fields with
  | nil => exact Leaves.pure fun s r hr => Or.inl hr
  | cons f fs ih =>
    refine Leaves.bind (addsOn_stable fields) (addRootField_leaves naming f.1 fields f.2) fun rs =>
      (ih rs).mono fun s rs' hrs' hrs r hr => ?_
    rcases hrs' r hr with hr | hr
    · exact hrs r hr
    · exact Or.inr hr

/-- What is known of the types in a schema: what takes a value has one on the side of arguments, what gives a value one
on the side of results, and so it is for what the types stand for in the schema. -/
structure KeepsSides (s : Session) (schema : Schema) : Prop where
  inputs : ∀ f ∈ schema.inputs, s.IsOn .input f.type.innermost ∧
    ∀ x, schema.definition? f.type.innermost = some x → x.IsOn .input
  outputs : ∀ f ∈ schema.outputs, s.IsOn .output f.type.innermost ∧
    ∀ x, schema.definition? f.type.innermost = some x → x.IsOn .output

private theorem keepsSides_of_root_types {s : Session} {schema : Schema}
    (hroot : ∀ r ∈ schema.root, s.FunctionOn r.field)
    (htypes : ∀ e ∈ schema.types, IsSided s e) : KeepsSides s schema := by
  have hdefinition : ∀ {d : Direction} {t : NamedType}, s.IsOn d t →
      s.IsOn d t ∧ ∀ x, schema.definition? t = some x → x.IsOn d := by
    intro d t ht
    refine ⟨ht, fun x hx => ?_⟩
    unfold Schema.definition? TypeSystem.definition? Schema.system at hx
    obtain ⟨e, he, rfl⟩ := Option.map_eq_some_iff.1 hx
    obtain rfl : e.1 = t := by simpa using List.find?_some he
    exact (htypes e (List.mem_of_find?_eq_some he)).kind d ht
  constructor
  · intro f hf
    obtain ⟨x, hx, hf⟩ := List.mem_flatMap.1 hf
    rcases List.mem_cons.1 hx with rfl | hx
    · obtain ⟨y, hy, hf⟩ := List.mem_flatMap.1 hf
      obtain ⟨r, hr, rfl⟩ := List.mem_map.1 hy
      exact hdefinition ((hroot r hr).2 f hf)
    · obtain ⟨e, he, rfl⟩ := List.mem_map.1 hx
      exact hdefinition ((htypes e he).inputs f hf)
  · intro f hf
    obtain ⟨x, hx, hf⟩ := List.mem_flatMap.1 hf
    rcases List.mem_cons.1 hx with rfl | hx
    · obtain ⟨r, hr, rfl⟩ := List.mem_map.1 hf
      exact hdefinition (hroot r hr).1
    · obtain ⟨e, he, rfl⟩ := List.mem_map.1 hx
      exact hdefinition ((htypes e he).outputs f hf)

theorem assemble_leaves (queries : QueryNaming) (offers : List Offer) :
    Leaves (assemble queries offers) KeepsSides := by
  unfold assemble
  refine Leaves.bind (addsOn_stable []) (Leaves.adapt _ (addRootFields_leaves queries _ [])) fun root => ?_
  refine Leaves.after (Leaves.ofExcept fun _ _ => trivial) fun _ => Leaves.read fun s => ?_
  refine Leaves.bind (P := fun s types => ∀ e ∈ types, IsSided s e) ?_ (Leaves.adapt _ ?_) fun types => ?_
  · exact fun _ _ h _ htypes e he => (htypes e he).of_extends h
  · exact (collectTypes_leaves (typeBound s) [] _).mono fun s types h => h (by simp)
  · have hkeeps : ∀ s : Session, (∀ e ∈ types, IsSided s e) → AddsOn [] s root → KeepsSides s ⟨root, types⟩ :=
      fun s htypes hroot => keepsSides_of_root_types (fun r hr => (hroot r hr).resolve_left List.not_mem_nil) htypes
    dsimp only
    split
    · exact Leaves.throw_bind _ _
    · refine Leaves.after (Leaves.ofExcept fun _ _ => trivial) fun _ => ?_
      split
      · exact Leaves.throw_bind _ _
      · exact Leaves.after (Leaves.close fun _ => trivial) fun _ => Leaves.pure hkeeps

/-! ### Runs that assemble schemas -/

/-- One step of a run. -/
inductive Turn where
  | step (s : Graph.Step)
  | assemble (queries : QueryNaming) (offers : List Offer)

/-- The session after a step, whether it succeeds or fails. -/
def Turn.next (s : Session) : Turn → Session
  | .step x => s.step x
  | .assemble queries offers => (Work.run (Schema.assemble queries offers) s).2

/-- The session after a run. -/
def after (s : Session) (run : List Turn) : Session := run.foldl Turn.next s

/-- Somewhere in the run, the request is made and gets the answer. -/
def Answers (s : Session) (run : List Turn) (q : Request) (a : Reply) : Prop :=
  ∃ before rest, run = before ++ .step (.ask q) :: rest ∧ (Work.run q.work (after s before)).1 = .ok a

/-- Somewhere in the run, the schema is assembled. -/
def Assembles (s : Session) (run : List Turn) (schema : Schema) : Prop :=
  ∃ before queries offers rest, run = before ++ .assemble queries offers :: rest ∧
    (Work.run (assemble queries offers) (after s before)).1 = .ok schema

/-- What an answer to a request says about sides. -/
def Fits (s : Session) : Request → Reply → Prop
  | .compile d _ _, .type g => s.IsOn d g.innermost
  | .function _ _, .function f => s.FunctionOn f
  | .fields id, .fields fields => ∃ node, s.node? id = some node ∧ s.FieldsOf node fields
  | _, _ => True

theorem Fits.of_extends {s s' : Session} (h : s.Extends s') {q : Request} {a : Reply} (hf : Fits s q a) :
    Fits s' q a := by
  unfold Fits at hf ⊢
  split at hf
  · exact hf.of_extends h
  · exact Graph.functionOn_stable _ _ h _ hf
  · obtain ⟨node, hn, hfields⟩ := hf
    exact ⟨node, h.node? hn, Graph.fieldsOf_stable node _ _ h _ hfields⟩
  · trivial

private theorem work_leaves (q : Request) : Leaves q.work fun s a => Fits s q a := by
  cases q with
  | compile d file t =>
    exact Leaves.adapt _ (Leaves.bind (Graph.innermost_stable d id) (Graph.compileType_leaves d file t) fun g =>
      Leaves.pure fun s h => h)
  | function file f =>
    exact Leaves.adapt _ (Leaves.bind Graph.functionOn_stable (Graph.compileFunction_leaves file f) fun g =>
      Leaves.pure fun s h => h)
  | fields id =>
    refine Leaves.look fun s₀ => ?_
    split
    · exact Leaves.throw _
    · rename_i node hn
      refine Leaves.adapt _ (Leaves.bind (Graph.fieldsOf_stable node) (Graph.nodeFields_leaves node) fun fields => ?_)
      exact Leaves.pure fun s hf hs => ⟨node, hs.node? hn, hf⟩

/-- A step only adds to a sided session and leaves it sided. -/
private theorem next_sided {s : Session} (hs : s.Sided) (x : Turn) : s.Extends (x.next s) ∧ (x.next s).Sided := by
  cases x with
  | step x =>
    cases x with
    | load tree paths => exact ⟨Session.extends_step s (.load tree paths), hs⟩
    | ask q => exact ⟨(work_leaves q s hs).1, (work_leaves q s hs).2.1⟩
  | assemble queries offers =>
    exact ⟨(assemble_leaves queries offers s hs).1, (assemble_leaves queries offers s hs).2.1⟩

theorem after_sided {s : Session} (hs : s.Sided) (run : List Turn) : s.Extends (after s run) ∧ (after s run).Sided := by
  induction run generalizing s with
  | nil => exact ⟨Session.Extends.refl s, hs⟩
  | cons x run ih =>
    obtain ⟨hgrows, hsided⟩ := next_sided hs x
    obtain ⟨hgrows', hsided'⟩ := ih hsided
    exact ⟨hgrows.trans hgrows', hsided'⟩

theorem after_append (s : Session) (before rest : List Turn) :
    after s (before ++ rest) = after (after s before) rest := by
  simp [after]

/-- What an answer says about sides holds ever after. -/
private theorem Answers.fits {s : Session} (hs : s.Sided) {run : List Turn} {q : Request} {a : Reply}
    (h : Answers s run q a) : Fits (after s run) q a := by
  obtain ⟨before, rest, rfl, ha⟩ := h
  obtain ⟨-, hsided, hfits⟩ := work_leaves q _ (after_sided hs before).2
  rw [after_append]
  exact (hfits a ha).of_extends (after_sided hsided rest).1

theorem KeepsSides.of_extends {s s' : Session} (h : s.Extends s') {schema : Schema} (hk : KeepsSides s schema) :
    KeepsSides s' schema :=
  ⟨fun f hf => ⟨(hk.inputs f hf).1.of_extends h, (hk.inputs f hf).2⟩,
    fun f hf => ⟨(hk.outputs f hf).1.of_extends h, (hk.outputs f hf).2⟩⟩

private theorem Assembles.keepsSides {s : Session} (hs : s.Sided) {run : List Turn} {schema : Schema}
    (h : Assembles s run schema) : KeepsSides (after s run) schema := by
  obtain ⟨before, queries, offers, rest, rfl, ha⟩ := h
  obtain ⟨-, hsided, hkeeps⟩ := assemble_leaves queries offers _ (after_sided hs before).2
  rw [after_append]
  exact (hkeeps schema ha).of_extends (after_sided hsided rest).1

/-! ### Where types lead -/

/-- The types that a type leads to, through lists and marks that forbid `null`, and through fields that have been read
somewhere in the run. -/
inductive Leads (s : Session) (run : List Turn) (g : GraphType) : GraphType → Prop
  | start : Leads s run g g
  | list {element : GraphType} : Leads s run g (.list element) → Leads s run g element
  | nonNull {inner : GraphType} : Leads s run g (.nonNull inner) → Leads s run g inner
  | input {id : Nat} {fields : List InputField} {f : InputField} : Leads s run g (.named (.node id)) →
      Answers s run (.fields id) (.fields (.input fields)) → f ∈ fields → Leads s run g f.type
  | output {id : Nat} {fields : List OutputField} {f : OutputField} : Leads s run g (.named (.node id)) →
      Answers s run (.fields id) (.fields (.output fields)) → f ∈ fields → Leads s run g f.type

/-- From a type on a side, all ways lead to that side. -/
private theorem Leads.isOn {s : Session} (hs : s.Sided) {run : List Turn} {d : Direction} {g g' : GraphType}
    (hg : (after s run).IsOn d g.innermost) (h : Leads s run g g') : (after s run).IsOn d g'.innermost := by
  have hfields : ∀ {id : Nat} {fields : Fields}, (after s run).IsOn d (.node id) →
      Answers s run (.fields id) (.fields fields) → (after s run).FieldsOn d fields := by
    rintro id fields ⟨node, hn, hd⟩ ha
    obtain ⟨node', hn', hf⟩ := ha.fits hs
    rw [hn] at hn'
    cases hn'
    exact hf d hd
  induction h with
  | start => exact hg
  | list _ ih => exact ih
  | nonNull _ ih => exact ih
  | input _ ha hf ih => 
    obtain ⟨rfl, hall⟩ := hfields ih ha
    exact hall _ hf
  | output _ ha hf ih =>
    obtain ⟨rfl, hall, -⟩ := hfields ih ha
    exact hall _ hf

/-- In every run of a session that begins with any documents and no nodes, whatever names types are given: all types
that a type compiled for a direction leads to are on that side; the result of a compiled function leads to the side of
results, its arguments lead to the side of arguments; and in every schema that is assembled, all arguments and fields of
input objects have types on the side of arguments, and all fields of objects, those of the root included, on the side of
results. -/
theorem sides_of_turns (enumsAsInts : Bool) (types : TypeNaming) (l : Library) (run : List Turn) :
    let s : Session := { Session.fresh enumsAsInts types with library := l }
    (∀ (d : Direction) (file : Path) (t : TypeExpr) (g g' : GraphType),
      Answers s run (.compile d file t) (.type g) → Leads s run g g' → (after s run).IsOn d g'.innermost) ∧
    (∀ (file : Path) (f : Function) (x : OutputField) (g' : GraphType), Answers s run (.function file f) (.function x) →
      (Leads s run x.type g' → (after s run).IsOn .output g'.innermost) ∧
      ∀ a ∈ x.arguments, Leads s run a.type g' → (after s run).IsOn .input g'.innermost) ∧
    ∀ schema, Assembles s run schema → KeepsSides (after s run) schema := by
  intro s
  have hs : s.Sided := Session.fresh_sided enumsAsInts types
  refine ⟨fun d file t g g' ha hl => ?_, fun file f x g' ha => ?_, fun schema ha => ha.keepsSides hs⟩
  · exact hl.isOn hs (ha.fits hs)
  · obtain ⟨hresult, harguments⟩ := ha.fits hs
    exact ⟨fun hl => hl.isOn hs hresult, fun a hmem hl => hl.isOn hs (harguments a hmem)⟩

/-- A struct that has itself as a field, and a function from it to it. -/
def looped : Library where
  entries := [(⟨["idl", "a.thrift"]⟩, ⟨1, [.declaration (.struct loop), .service service], none⟩)]
where
  file : Path := ⟨["idl", "a.thrift"]⟩
  next : Idl.Field := ⟨1, "next", some 1, none, .named 1 "S", none, none⟩
  loop : Idl.Struct := ⟨.struct, 1, "S", [next], none⟩
  argument : Idl.Field := ⟨1, "a", some 1, none, .named 1 "S", none, none⟩
  function : Idl.Function := ⟨1, "f", .named 1 "S", [argument], [], false, none⟩
  service : Idl.Service := ⟨1, "V", none, [function], none⟩
  offer : Offer := ⟨.text "v", file, service, false, []⟩

namespace looped

/-- A session with some of the nodes of the struct. -/
def session (nodes : List (NodeKey × Node)) : Session :=
  { Session.fresh false Graph.declaredName with
    library := looped, nodes, names := ⟨(nodes.map (·.2.name)).reverse ++ Graph.reservedNames, []⟩ }

/-- The node of the struct as an argument. -/
def taken : NodeKey × Node := (⟨file.written, "S", some .input⟩, .input "SInput" file loop)

/-- The node of the struct as a result. -/
def given : NodeKey × Node := (⟨file.written, "S", some .output⟩, .output "S" file loop)

/-- A type that stands for the struct is compiled to a node of the struct. -/
private theorem run_compile {t : Idl.TypeExpr} (h : Graph.expandType looped [] file t = .ok (.bare (.struct file loop)))
    (d : Option Direction) (nodes : List (NodeKey × Node)) :
    Work.run (Graph.compileType d file t) (session nodes) =
      Work.run (Graph.compileExpansion d (.ok (.bare (.struct file loop)))) (session nodes) := by
  unfold Graph.compileType
  rw [Work.run_bind_of_ok (Work.run_get _)]
  show Work.run (Graph.compileExpansion d (Graph.expandType looped [] file t)) _ = _
  rw [h]

theorem expand_named : Graph.expandType looped [] file (.named 1 "S") = .ok (.bare (.struct file loop)) := by cbv

private theorem expand_next : Graph.expandType looped [] file (.field next) = .ok (.bare (.struct file loop)) := by cbv

private theorem expand_argument : Graph.expandType looped [] file (.field argument) =
    .ok (.bare (.struct file loop)) := by cbv

/-- The session once both nodes have been made. -/
def both : Session := session [taken, given]

/-- The field as an argument. -/
def nextInput : InputField := ⟨"next", .named (.node 0), none, none⟩

/-- The field as a result. -/
def nextOutput : OutputField := ⟨"next", .named (.node 1), [], none⟩

private theorem run_taken : Work.run (Graph.nodeFields taken.2) both = (.ok (.input [nextInput]), both) := by
  have hfield : Work.run (Graph.compileInputField file next) both = (.ok nextInput, both) := by
    unfold Graph.compileInputField Graph.compileField
    rw [Work.run_bind_of_ok (run_compile expand_next _ _)]
    rfl
  have hstruct : Work.run (Graph.structInputFields file loop) both = (.ok [nextInput], both) := by
    show Work.run ((Graph.compileInputField file next >>= _) >>= _) both = _
    rw [Work.run_bind, Work.run_bind_of_ok hfield]
    rfl
  show Work.run (ExceptT.adapt _ (Graph.structInputFields file loop) >>= _) both = _
  rw [Work.run_bind, Work.run_adapt, hstruct]
  rfl

private theorem run_given : Work.run (Graph.nodeFields given.2) both = (.ok (.output [nextOutput]), both) := by
  have hfield : Work.run (Graph.compileOutputField file next) both = (.ok nextOutput, both) := by
    unfold Graph.compileOutputField Graph.compileField
    rw [Work.run_bind_of_ok (run_compile expand_next _ _)]
    rfl
  have hstruct : Work.run (Graph.structOutputFields file loop) both = (.ok [nextOutput], both) := by
    show Work.run ((Graph.compileOutputField file next >>= _) >>= _) both = _
    rw [Work.run_bind, Work.run_bind_of_ok hfield]
    rfl
  show Work.run (ExceptT.adapt _ (Graph.structOutputFields file loop) >>= _) both = _
  rw [Work.run_bind, Work.run_adapt, hstruct]
  rfl

/-- The argument of the function. -/
def argumentInput : InputField := ⟨"a", .named (.node 0), none, none⟩

/-- The function as a field. -/
def root : OutputField := ⟨"f", .named (.node 1), [argumentInput], none⟩

private theorem run_function : Work.run (Graph.compileFunction file function) both = (.ok root, both) := by
  have hargument : Work.run (Graph.compileInputField file argument) both = (.ok argumentInput, both) := by
    unfold Graph.compileInputField Graph.compileField
    rw [Work.run_bind_of_ok (run_compile expand_argument _ _)]
    rfl
  have harguments : Work.run (Graph.compileInputFields file [argument]) both = (.ok [argumentInput], both) := by
    unfold Graph.compileInputFields
    rw [Work.run_bind_of_ok hargument]
    rfl
  unfold Graph.compileFunction
  rw [Work.run_bind_of_ok (run_compile expand_named _ _)]
  show Work.run (Graph.compileInputFields file [argument] >>= _) both = _
  rw [Work.run_bind_of_ok harguments]
  rfl

/-- The schema with the function. -/
def schema : Schema where
  root := [⟨{ root with name := "V_f" }, ⟨.text "v", function, {}⟩⟩]
  types := [(.node 1, .object "S" none [nextOutput]), (.node 0, .input "SInput" none [nextInput])]

private theorem isValid_schema : schema.IsValid where
  distinct := by decide +kernel
  members := rfl
  faultless := by
    have hnames : ∀ name ∈ ["Query", "V_f", "a", "S", "SInput", "next"], nameFault name = [] := by decide +kernel
    have hsearch : (schema.types.foldl (searchType schema.system) ⟨[], []⟩).faults = [] := by
      show (searchNeeds schema.system 3 [(.node 0, 0)] [] [] ⟨[.node 0], []⟩).faults = []
      rw [searchNeeds]
    simp only [List.forall_mem_cons] at hnames
    obtain ⟨hquery, hf, ha, hS, hinput, hnext, -⟩ := hnames
    have hdefinitions : schema.definitions.flatMap Definition.faults = [] := by
      simp [Schema.definitions, TypeSystem.definitions, TypeSystem.rootDefinition, Schema.system, schema,
        Definition.faults, fieldFaults, root, rootName, argumentInput, nextInput, nextOutput, hquery, hf, ha, hS,
          hinput, hnext]
    unfold Schema.faults
    rw [hdefinitions, hsearch]
    rfl

/-- The schema is assembled from the two nodes. -/
theorem run_assemble : Work.run (assemble Graph.joinedName [offer]) both = (.ok schema, both.close) := by
  have hgiven : Work.run (define (.node 1)) both = (.ok (some (.object "S" none [nextOutput])), both) := by
    show Work.run (Graph.nodeFields given.2 >>= _) both = _
    rw [Work.run_bind_of_ok run_given]
    rfl
  have htaken : Work.run (define (.node 0)) both = (.ok (some (.input "SInput" none [nextInput])), both) := by
    show Work.run (Graph.nodeFields taken.2 >>= _) both = _
    rw [Work.run_bind_of_ok run_taken]
    rfl
  have hroot : Work.run (rootFields Graph.joinedName [offer]) both = (.ok schema.root, both) := by
    show Work.run ((Graph.compileFunction file function >>= _) >>= _) both = _
    rw [Work.run_bind, Work.run_bind_of_ok run_function]
    rfl
  refine run_assemble_of_ok hroot (by decide +kernel) ?_ isValid_schema
  obtain ⟨fuel, hfuel⟩ : ∃ fuel, typeBound both = fuel + 1 + 1 := ⟨_, rfl⟩
  show Work.run (collectTypes (typeBound both) [] [.node 1, .node 0]) both = _
  rw [hfuel, collectTypes_succ (by simp), Work.run_bind_of_ok hgiven]
  show Work.run (collectTypes (fuel + 1) [_] [.node 1, .node 0]) both = _
  rw [collectTypes_of_met (by simp), collectTypes_succ (by simp), Work.run_bind_of_ok htaken]
  show Work.run (collectTypes fuel [_, _] [.node 0]) both = _
  rw [collectTypes_of_met (by simp), collectTypes_nil]
  rfl

/-- The request for a type. -/
abbrev typeTurn (d : Direction) : Turn := .step (.ask (.compile d file (.named 1 "S")))

/-- The request for the fields of a node. -/
abbrev fieldsTurn (id : Nat) : Turn := .step (.ask (.fields id))

/-- The struct is compiled from both sides, the fields of both nodes are read, then the function and the schema
follow. -/
def run : List Turn :=
  [typeTurn .input, typeTurn .output, fieldsTurn 0, fieldsTurn 1, .step (.ask (.function file function)),
    .assemble Graph.joinedName [offer]]

theorem run_typeTurn {d : Direction} {nodes nodes' : List (NodeKey × Node)} {g : GraphType}
    (h : Work.run (Graph.compileExpansion (some d) (.ok (.bare (.struct file loop)))) (session nodes) =
      (.ok g, session nodes')) :
    Work.run (Request.compile d file (.named 1 "S")).work (session nodes) = (.ok (.type g), session nodes') := by
  unfold Request.work
  rw [Work.run_adapt, Work.run_bind, run_compile expand_named, h]
  rfl

private theorem run_fieldsTurn {id : Nat} {node : Node} (hn : both.node? id = some node) {fields : Fields}
    (h : Work.run (Graph.nodeFields node) both = (.ok fields, both)) :
    Work.run (Request.fields id).work both = (.ok (.fields fields), both) := by
  unfold Request.work
  rw [Work.run_bind_of_ok (Work.run_get both), hn]
  show Work.run (ExceptT.adapt _ (Graph.nodeFields node >>= _)) both = _
  rw [Work.run_adapt, Work.run_bind_of_ok h]
  rfl

/-- A request in the midst of a run. -/
private theorem answers_of_run {s s' s'' : Session} {b r : List Turn} {q : Request} {a : Reply} (hs : after s b = s')
    (h : Work.run q.work s' = (.ok a, s'')) :
    Answers s (b ++ .step (.ask q) :: r) q a ∧ after s (b ++ [.step (.ask q)]) = s'' := by
  subst hs
  refine ⟨⟨b, r, rfl, congrArg Prod.fst h⟩, ?_⟩
  rw [after_append]
  exact congrArg Prod.snd h

end looped

/-- The struct leads to itself, to the same side; and the schema has a type on each side. -/
theorem sides_of_turns_looped :
    let s := looped.session []
    ∃ g g' x,
      Answers s looped.run (.compile .input looped.file (.named 1 "S")) (.type g) ∧
      Answers s looped.run (.compile .output looped.file (.named 1 "S")) (.type g') ∧
      Answers s looped.run (.function looped.file looped.function) (.function x) ∧
      Leads s looped.run g looped.nextInput.type ∧
      (after s looped.run).IsOn .input looped.nextInput.type.innermost ∧
      Leads s looped.run g' looped.nextOutput.type ∧
      (after s looped.run).IsOn .output looped.nextOutput.type.innermost ∧
      (after s looped.run).IsOn .output x.type.innermost ∧
      Assembles s looped.run looped.schema ∧ KeepsSides (after s looped.run) looped.schema := by
  intro s
  let g : GraphType := .named (.node 0)
  let g' : GraphType := .named (.node 1)
  have h₀ : Work.run (Request.compile .input looped.file (.named 1 "S")).work s =
      (.ok (.type g), looped.session [looped.taken]) := looped.run_typeTurn rfl
  have h₁ : Work.run (Request.compile .output looped.file (.named 1 "S")).work (looped.session [looped.taken]) =
      (.ok (.type g'), looped.both) := looped.run_typeTurn rfl
  have h₂ := looped.run_fieldsTurn (show looped.both.node? 0 = some looped.taken.2 from rfl) looped.run_taken
  have h₃ := looped.run_fieldsTurn (show looped.both.node? 1 = some looped.given.2 from rfl) looped.run_given
  have h₄ : Work.run (Request.function looped.file looped.function).work looped.both =
      (.ok (.function looped.root), looped.both) := by
    unfold Request.work
    rw [Work.run_adapt, Work.run_bind_of_ok looped.run_function]
    rfl
  obtain ⟨ha₀, hs₁⟩ := looped.answers_of_run (b := []) (r := looped.run.drop 1) rfl h₀
  obtain ⟨ha₁, hs₂⟩ := looped.answers_of_run (r := looped.run.drop 2) hs₁ h₁
  obtain ⟨ha₂, hs₃⟩ := looped.answers_of_run (r := looped.run.drop 3) hs₂ h₂
  obtain ⟨ha₃, hs₄⟩ := looped.answers_of_run (r := looped.run.drop 4) hs₃ h₃
  obtain ⟨ha₄, hs₅⟩ := looped.answers_of_run (r := looped.run.drop 5) hs₄ h₄
  have hl : Leads s looped.run g looped.nextInput.type := .input .start ha₂ List.mem_cons_self
  have hl' : Leads s looped.run g' looped.nextOutput.type := .output .start ha₃ List.mem_cons_self
  have ha : Assembles s looped.run looped.schema := by
    refine ⟨looped.run.take 5, Graph.joinedName, [looped.offer], [], rfl, ?_⟩
    rw [show after s (looped.run.take 5) = looped.both from hs₅, looped.run_assemble]
  obtain ⟨htype, hfunction, hschema⟩ := sides_of_turns false Graph.declaredName looped looped.run
  exact ⟨g, g', looped.root, ha₀, ha₁, ha₄, hl, htype _ _ _ _ _ ha₀ hl, hl', htype _ _ _ _ _ ha₁ hl',
    (hfunction _ _ _ _ ha₄).1 .start, ha, hschema _ ha⟩

end ThriftGateway.Schema
