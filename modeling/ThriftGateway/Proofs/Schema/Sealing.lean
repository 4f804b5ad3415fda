import ThriftGateway.Execution.Response
import ThriftGateway.Proofs.Graph.Naming
import ThriftGateway.Proofs.Graph.Sealed
import ThriftGateway.Proofs.Schema.Collecting
import ThriftGateway.Proofs.Schema.Moving

/-!
# Sealing is safe

When a schema has been assembled, every type that its types refer to has been collected (`Gathered`), so all that
reading the schema needs has been made.  From then on the session makes nothing more (`after_atRest`), reading the
schema again tells the same and requests execute as before, and the types that are still refused are those without a
node (`hasAll_of_assembles`).
-/

namespace ThriftGateway.Schema

open Graph (CompileError Direction Expansion Fields FieldsError Gives Idle InputField Moves NamedType Node NodeKey
  OutputField QueryNaming Reply Request Session SameIfSealed Steady TypeNaming Work expandType nodeFields wrapped)
open Idl (Function TypeExpr)
open Source (Library Path)

/-! ### Telling what a type is -/

private theorem define_idle (t : NamedType) : Idle (define t) :=
  Moves.define fun s _ _ _ => Graph.nodeFields_idle _ s

/-- What a node is, with its fields compiled. -/
def describe : Node → Work FieldsError (Option Definition)
  | .enumeration name members description => return some (.enumeration name description members)
  | node => do return definitionOf node (← nodeFields node)

private theorem describe_steady (node : Node) : Steady (describe node) := by
  cases node with
  | enumeration name members description => exact .pure _
  | input | output | foreign => exact (Graph.nodeFields_steady _).bind fun _ => .pure _

private theorem run_define_of_node? {s : Session} {id : Nat} {node : Node} (hn : s.node? id = some node) :
    Work.run (define (.node id)) s = Work.run (describe node) s := by
  unfold define
  rw [Work.run_bind_of_ok (Work.run_get s), hn]
  cases node <;> rfl

/-- There is a node behind what is told of its number. -/
private theorem exists_node_of_define {id : Nat} {s s' : Session} {d : Definition}
    (h : Work.run (define (.node id)) s = (.ok (some d), s')) :
    ∃ node, s.node? id = some node ∧ Work.run (describe node) s = (.ok (some d), s') := by
  cases hn : s.node? id with
  | none =>
    unfold define at h
    rw [Work.run_bind_of_ok (Work.run_get s), hn] at h
    cases h
  | some node => exact ⟨node, rfl, run_define_of_node? hn ▸ h⟩

/-- What a type is told to be, it goes on to be, and telling it again changes nothing. -/
private theorem define_again {t : NamedType} {s s₁ s₂ : Session} {d : Definition}
    (h : Work.run (define t) s = (.ok (some d), s₁)) (hs : s₁.Extends s₂) :
    Work.run (define t) s₂ = (.ok (some d), s₂) := by
  cases t with
  | scalar x =>
    cases h
    rfl
  | node id =>
    obtain ⟨node, hn, hnode⟩ := exists_node_of_define h
    have hgrows : s.Extends s₁ := by
      have := (describe_steady node).grows s
      rwa [hnode] at this
    rw [run_define_of_node? ((hgrows.trans hs).node? hn)]
    exact (describe_steady node).again hnode hs

/-- A type that is known to a session is something. -/
private theorem exists_of_define {t : NamedType} {s s' : Session} {d : Direction} (ht : s.IsOn d t)
    {x : Option Definition} (h : Work.run (define t) s = (.ok x, s')) : ∃ y, x = some y := by
  cases t with
  | scalar x =>
    cases h
    exact ⟨_, rfl⟩
  | node id =>
    obtain ⟨node, hn, hd⟩ := ht
    rw [run_define_of_node? hn] at h
    cases node with
    | enumeration name members description =>
      cases h
      exact ⟨_, rfl⟩
    | input name file struct =>
      obtain ⟨fields, s₁, hfields, hx⟩ := Work.run_bind_eq_ok.1 h
      obtain ⟨xs, s₂, -, hfields⟩ := Work.run_bind_eq_ok.1 hfields
      obtain ⟨_, s₃, -, hfields⟩ := Work.run_bind_eq_ok.1 hfields
      cases hfields
      cases hx
      exact ⟨_, rfl⟩
    | output name file struct =>
      obtain ⟨fields, s₁, hfields, hx⟩ := Work.run_bind_eq_ok.1 h
      obtain ⟨xs, s₂, -, hfields⟩ := Work.run_bind_eq_ok.1 hfields
      obtain ⟨_, s₃, -, hfields⟩ := Work.run_bind_eq_ok.1 hfields
      cases hfields
      cases hx
      exact ⟨_, rfl⟩
    | foreign => exact hd.elim

/-! ### Collecting is complete -/

/-- The references of a definition are types of the session, if what takes and gives values is on its side. -/
private theorem IsSided.references {s : Session} {e : NamedType × Definition} (he : IsSided s e) :
    ∀ t ∈ e.2.references, ∃ d, s.IsOn d t := by
  obtain ⟨t, x⟩ := e
  cases x with
  | scalar | enumeration => nofun
  | input name description fields =>
    intro t' ht
    obtain ⟨f, hf, rfl⟩ := List.mem_map.1 ht
    exact ⟨.input, he.inputs f hf⟩
  | object name description fields =>
    intro t' ht
    obtain ⟨f, hf, ht⟩ := List.mem_flatMap.1 ht
    rcases List.mem_cons.1 ht with rfl | ht
    · exact ⟨.output, he.outputs f hf⟩
    · obtain ⟨a, ha, rfl⟩ := List.mem_map.1 ht
      exact ⟨.input, he.inputs a (List.mem_flatMap.2 ⟨f, hf, ha⟩)⟩

/-- What has been collected, when some types are still pending: every reference has been met or is pending, and what has
been met is told again in all later sessions. -/
structure Gathered (s : Session) (met : List (NamedType × Definition)) (pending : List NamedType) : Prop where
  sided : s.Sided
  known : ∀ t ∈ pending, ∃ d, s.IsOn d t
  told : ∀ e ∈ met, ∀ s', s.Extends s' → Work.run (define e.1) s' = (.ok (some e.2), s')
  closed : ∀ e ∈ met, ∀ t ∈ e.2.references, t ∈ met.map Prod.fst ∨ t ∈ pending

section Gathering

variable {s s' : Session} {met types : List (NamedType × Definition)} {t : NamedType} {pending : List NamedType}

/-- A type that has been met need not be pending. -/
private theorem Gathered.again (h : Gathered s met (t :: pending)) (hmet : t ∈ met.map Prod.fst) :
    Gathered s met pending where
  sided := h.sided
  known t' ht := h.known t' (List.mem_cons_of_mem _ ht)
  told := h.told
  closed e he t' ht := by
    rcases h.closed e he t' ht with ht | ht
    · exact .inl ht
    · rcases List.mem_cons.1 ht with rfl | ht
      · exact .inl hmet
      · exact .inr ht

/-- A type that is met is told from then on, and what it refers to becomes pending. -/
private theorem Gathered.found (h : Gathered s met (t :: pending)) {d : Definition}
    (hd : Work.run (define t) s = (.ok (some d), s')) : Gathered s' (met ++ [(t, d)]) (d.references ++ pending) := by
  obtain ⟨hgrows, hsided, hdefines⟩ := define_leaves t s h.sided
  rw [hd] at hgrows hsided hdefines
  have hd' : IsSided s' (t, d) := hdefines _ rfl d rfl
  refine ⟨hsided, fun t' ht => ?_, fun e he s'' hs'' => ?_, fun e he t' ht => ?_⟩
  · rcases List.mem_append.1 ht with ht | ht
    · exact hd'.references t' ht
    · obtain ⟨side, hside⟩ := h.known t' (List.mem_cons_of_mem _ ht)
      exact ⟨side, hside.of_extends hgrows⟩
  · rcases List.mem_append.1 he with he | he
    · exact h.told e he s'' (hgrows.trans hs'')
    · rw [List.mem_singleton.1 he]
      exact define_again hd hs''
  · rw [List.map_append, List.map_singleton, List.mem_append, List.mem_append, List.mem_singleton]
    rcases List.mem_append.1 he with he | he
    · rcases h.closed e he t' ht with ht | ht
      · exact .inl (.inl ht)
      · rcases List.mem_cons.1 ht with rfl | ht
        · exact .inl (.inr rfl)
        · exact .inr (.inr ht)
    · rw [List.mem_singleton.1 he] at ht
      exact .inr (.inl ht)

/-- When nothing is pending any more, all that was pending has been met. -/
private theorem Gathered.of_collects (hc : Collects s met pending (.ok types, s')) (h : Gathered s met pending) :
    Gathered s' types [] ∧ ∀ t, t ∈ met.map Prod.fst ∨ t ∈ pending → t ∈ types.map Prod.fst := by
  generalize hr : ((Except.ok types, s') : Except FieldsError _ × Session) = r at hc
  induction hc with
  | done =>
    cases hr
    exact ⟨h, fun t ht => ht.resolve_right List.not_mem_nil⟩
  | @again s met t pending r hmet hc ih =>
    have ht : t ∈ met.map Prod.fst := by simpa using hmet
    obtain ⟨hgathered, hall⟩ := ih (h.again ht) hr
    refine ⟨hgathered, fun t' ht' => hall t' ?_⟩
    rcases ht' with ht' | ht'
    · exact .inl ht'
    · rcases List.mem_cons.1 ht' with rfl | ht'
      · exact .inl ht
      · exact .inr ht'
  | failed => cases hr
  | missing hmet hd hc ih =>
    obtain ⟨side, hside⟩ := h.known _ List.mem_cons_self
    obtain ⟨y, hy⟩ := exists_of_define hside hd
    cases hy
  | @found s s₁ met t d pending r hmet hd hc ih =>
    obtain ⟨hgathered, hall⟩ := ih (h.found hd) hr
    refine ⟨hgathered, fun t' ht' => hall t' ?_⟩
    rw [List.map_append, List.map_singleton, List.mem_append, List.mem_append, List.mem_singleton]
    rcases ht' with ht' | ht'
    · exact .inl (.inl ht')
    · rcases List.mem_cons.1 ht' with rfl | ht'
      · exact .inl (.inr rfl)
      · exact .inr (.inr ht')

end Gathering

/-- In a session that has assembled a schema, all that its fields refer to is in the schema, and everything in it is
told again in all later sessions. -/
private theorem gathered_of_assemble {queries : QueryNaming} {offers : List Offer} {s s' : Session} {schema : Schema}
    (hs : s.Sided) (h : Work.run (assemble queries offers) s = (.ok schema, s')) :
    (∀ d ∈ schema.definitions, ∀ t ∈ d.references, t ∈ schema.types.map Prod.fst) ∧
      ∀ e ∈ schema.types, ∀ s'', s'.Extends s'' → Work.run (define e.1) s'' = (.ok (some e.2), s'') := by
  obtain ⟨s₁, s₂, hroot, htypes, -, rfl⟩ := stages_of_run_assemble h
  obtain ⟨-, hsided, hadds⟩ := addRootFields_leaves queries (offeredFunctions offers) [] s hs
  rw [show Work.run (addRootFields queries (offeredFunctions offers) []) s = _ from hroot] at hsided hadds
  have hon : ∀ t ∈ outputReferences (schema.root.map RootField.field), ∃ d, s₁.IsOn d t := by
    intro t ht
    obtain ⟨f, hf, ht⟩ := List.mem_flatMap.1 ht
    obtain ⟨r, hr, rfl⟩ := List.mem_map.1 hf
    obtain ⟨hresult, harguments⟩ := (hadds _ rfl r hr).resolve_left List.not_mem_nil
    rcases List.mem_cons.1 ht with rfl | ht
    · exact ⟨.output, hresult⟩
    · obtain ⟨a, ha, rfl⟩ := List.mem_map.1 ht
      exact ⟨.input, harguments a ha⟩
  have hcollects := collects_of_typeBound s₁ (outputReferences (schema.root.map RootField.field))
  rw [htypes] at hcollects
  obtain ⟨hgathered, hall⟩ := Gathered.of_collects hcollects ⟨hsided, hon, nofun, nofun⟩
  refine ⟨fun d hd t ht => ?_, fun e he s'' hs'' => hgathered.told e he s'' ?_⟩
  · rcases List.mem_cons.1 hd with rfl | hd
    · exact hall t (.inr ht)
    · obtain ⟨e, he, rfl⟩ := List.mem_map.1 hd
      exact (hgathered.closed e he t ht).resolve_right List.not_mem_nil
  · exact s₂.extends_close.trans hs''

/-! ### Sealed sessions stay at rest -/

/-- If the session was sealed, it is sealed still, and its nodes and names are as they were. -/
def AtRest (s s' : Session) : Prop :=
  s.isSealed = true → s'.isSealed = true ∧ s'.nodes = s.nodes ∧ s'.names = s.names

instance : Graph.IsMove AtRest where
  refl _ hs := ⟨hs, rfl, rfl⟩
  trans h h' hs := by
    obtain ⟨hs', hnodes, hnames⟩ := h hs
    obtain ⟨hs'', hnodes', hnames'⟩ := h' hs'
    exact ⟨hs'', hnodes'.trans hnodes, hnames'.trans hnames⟩

variable {ε α : Type}

private theorem atRest_of_idle {w : Work ε α} (h : Idle w) : Moves AtRest w := by
  intro s hs
  rw [h s hs]
  exact ⟨hs, rfl, rfl⟩

private theorem assemble_atRest (queries : QueryNaming) (offers : List Offer) :
    Moves AtRest (assemble queries offers) := by
  unfold assemble
  have hroot : Moves AtRest (addRootFields queries (offeredFunctions offers) []) :=
    Moves.addRootFields (fun _ _ hs => ⟨hs, rfl, rfl⟩) (fun _ _ => atRest_of_idle (Graph.compileFunction_idle _ _)) []
  refine .bind (.adapt _ hroot) fun root => .bind (.ofExcept _ _) fun _ => ?_
  refine .read fun s => .bind (.adapt _ (atRest_of_idle (Moves.collectTypes define_idle _ _ _))) fun types => ?_
  dsimp only
  split
  · exact .throw_bind _ _
  · refine .bind (.ofExcept _ _) fun _ => ?_
    split
    · exact .throw_bind _ _
    · exact .bind (fun s hs => ⟨rfl, rfl, rfl⟩) fun _ => .pure _

/-- No step wakes a sealed session. -/
private theorem next_atRest (s : Session) (x : Turn) : AtRest s (x.next s) := by
  cases x with
  | step x =>
    cases x with
    | load tree paths => exact fun hs => ⟨hs, rfl, rfl⟩
    | ask q => exact atRest_of_idle (Graph.work_idle q) s
  | assemble queries offers => exact assemble_atRest queries offers s

theorem after_atRest (s : Session) (run : List Turn) : AtRest s (after s run) := by
  induction run generalizing s with
  | nil => exact Graph.IsMove.refl s
  | cons x run ih => exact Graph.IsMove.trans (next_atRest s x) (ih (x.next s))

/-! ### Reading and executing anew -/

private theorem run_retell {s : Session} {types : List (NamedType × Definition)}
    (h : ∀ e ∈ types, Work.run (define e.1) s = (.ok (some e.2), s)) :
    Work.run (retell types) s = (.ok types, s) := by
  induction types with
  | nil => rfl
  | cons e types ih =>
    rw [List.forall_mem_cons] at h
    obtain ⟨t, d⟩ := e
    unfold retell
    rw [Work.run_bind_of_ok h.1, Work.run_bind_of_ok (ih h.2)]
    rfl

/-- What is told of a number is told with the fields of the node, if the names of members are legal. -/
private theorem exists_fields_of_define {s : Session} {id : Nat} {d : Definition}
    (h : Work.run (define (.node id)) s = (.ok (some d), s))
    (hmembers : ∀ name description members, d = .enumeration name description members →
      Graph.checkAll Graph.checkMemberName (members.map Graph.EnumMember.name) = .ok ()) :
    ∃ node fields, s.node? id = some node ∧ Work.run (Request.fields id).work s = (.ok (.fields fields), s) ∧
      definitionOf node fields = some d := by
  obtain ⟨node, hn, hnode⟩ := exists_node_of_define h
  have hrun : ∀ fields, Work.run (nodeFields node) s = (.ok fields, s) →
      Work.run (Request.fields id).work s = (.ok (.fields fields), s) := by
    intro fields hfields
    unfold Request.work
    rw [Work.run_bind_of_ok (Work.run_get s), hn]
    exact Work.run_adapt_eq_ok.2 (Work.run_bind_eq_ok.2 ⟨fields, s, hfields, rfl⟩)
  cases node with
  | enumeration name members description =>
    cases hnode
    refine ⟨_, .none, hn, hrun _ ?_, rfl⟩
    show Work.run (Work.ofExcept _ _ >>= _) s = _
    rw [hmembers _ _ _ rfl]
    rfl
  | input | output | foreign =>
    obtain ⟨fields, s', hfields, hd⟩ := Work.run_bind_eq_ok.1 hnode
    rw [Work.run_pure, Prod.mk.injEq, Except.ok.injEq] at hd
    obtain ⟨hd, rfl⟩ := hd
    exact ⟨_, fields, hn, hrun _ hfields, hd⟩

/-! ### Complete schemas -/

private theorem innermost_mem_references_of_outputs {x : Definition} {f : OutputField} (hf : f ∈ x.outputs) :
    f.type.innermost ∈ x.references := by
  cases x with
  | object name description fields => exact List.mem_flatMap.2 ⟨f, hf, List.mem_cons_self⟩
  | scalar | input | enumeration => cases hf

private theorem innermost_mem_references_of_inputs {x : Definition} {f : InputField} (hf : f ∈ x.inputs) :
    f.type.innermost ∈ x.references := by
  cases x with
  | object name description fields =>
    obtain ⟨g, hg, hf⟩ := List.mem_flatMap.1 hf
    exact List.mem_flatMap.2 ⟨g, hg, List.mem_cons_of_mem _ (List.mem_map.2 ⟨f, hf, rfl⟩)⟩
  | input name description fields => exact List.mem_map.2 ⟨f, hf, rfl⟩
  | scalar | enumeration => cases hf

private theorem exists_definition?_of_mem {schema : Schema} {t : NamedType} (h : t ∈ schema.types.map Prod.fst) :
    ∃ x, schema.definition? t = some x := by
  obtain ⟨e, he, rfl⟩ := List.mem_map.1 h
  cases hf : schema.types.find? (·.1 = e.1) with
  | none => exact absurd (List.find?_eq_none.1 hf e he) (by simp)
  | some e' => exact ⟨e'.2, by rw [Schema.definition?, TypeSystem.definition?, Schema.system, hf]; rfl⟩

/-- A session has all that a schema needs: it is sealed, and everything in the schema refers to types of the schema.
The fields of its types are read and requests are executed with nothing made.  A request for a type that ends at a
struct gets the node of the struct, or is refused if there is none; one that ends at an enumeration with a node is
answered; and no request changes the session. -/
structure HasAll (s : Session) (schema : Schema) : Prop where
  isSealed : s.isSealed = true
  outputs : ∀ f ∈ schema.outputs, ∃ x, schema.definition? f.type.innermost = some x
  inputs : ∀ f ∈ schema.inputs, ∃ x, schema.definition? f.type.innermost = some x
  fields : ∀ id x, (NamedType.node id, x) ∈ schema.types → ∃ node fields, s.node? id = some node ∧
    Work.run (Request.fields id).work s = (.ok (.fields fields), s) ∧ definitionOf node fields = some x
  executes : ∀ env request name given context,
    Work.run (Execution.executeAnew schema env request name given context) s =
    (.ok (Execution.execute schema env request name given context), s)
  struct : ∀ (d : Direction) file t (e : Expansion) f struct,
    expandType s.library [] file t = .ok e → e.core = .struct f struct →
      (∀ id, s.find? ⟨f.written, struct.name, some d⟩ = some id →
        Work.run (Request.compile d file t).work s = (.ok (.type (wrapped e.around (.node id))), s)) ∧
      (s.find? ⟨f.written, struct.name, some d⟩ = none →
        Work.run (Request.compile d file t).work s = (.error (.compile (.sealedSession struct.name f.written)), s))
  enumeration : ∀ (d : Direction) file t (e : Expansion) f enumeration,
    expandType s.library [] file t = .ok e → e.core = .enumeration f enumeration →
      ∀ id, s.find? ⟨f.written, enumeration.name, none⟩ = some id →
        ∃ g, Work.run (Request.compile d file t).work s = (.ok (.type g), s)
  unchanged : ∀ q : Request, (Work.run q.work s).2 = s

/-- In every run of a session that begins with any documents and no nodes, whatever names types are given: once a schema
has been assembled, the session has all that the schema needs, and goes on to have it. -/
theorem hasAll_of_assembles (enumsAsInts : Bool) (types : TypeNaming) (l : Library) (run : List Turn) (schema : Schema)
    (h : Assembles { Session.fresh enumsAsInts types with library := l } run schema) :
    HasAll (after { Session.fresh enumsAsInts types with library := l } run) schema := by
  obtain ⟨before, queries, offers, rest, rfl, hok⟩ := h
  have hfresh : ({ Session.fresh enumsAsInts types with library := l } : Session).Sided :=
    Session.fresh_sided enumsAsInts types
  have hsided := (after_sided hfresh before).2
  generalize hs₀ : after _ before = s₀ at hok hsided
  -- the session once the schema has been assembled, and the session that the rest of the run leaves
  obtain ⟨s₁, hs₁⟩ : ∃ s₁, Work.run (assemble queries offers) s₀ = (.ok schema, s₁) := ⟨_, Prod.ext hok rfl⟩
  obtain ⟨s, hs⟩ : ∃ s, after s₁ rest = s := ⟨_, rfl⟩
  have hafter : after { Session.fresh enumsAsInts types with library := l }
    (before ++ .assemble queries offers :: rest) =
      s := by
    rw [after_append, hs₀, ← hs]
    show after (Work.run (assemble queries offers) s₀).2 rest = _
    rw [hs₁]
  obtain ⟨hreferences, htold⟩ := gathered_of_assemble hsided hs₁
  obtain ⟨-, s₂, -, -, hvalid, rfl⟩ := stages_of_run_assemble hs₁
  have hsided₁ : s₂.close.Sided := by
    have := (assemble_leaves queries offers s₀ hsided).2.1
    rwa [hs₁] at this
  have hsealed : s.isSealed = true := hs ▸ (after_atRest s₂.close rest rfl).1
  have htold : ∀ e ∈ schema.types, Work.run (define e.1) s = (.ok (some e.2), s) :=
    fun e he => htold e he s (hs ▸ (after_sided hsided₁ rest).1)
  rw [hafter]
  refine ⟨hsealed, fun f hf => ?_, fun f hf => ?_, fun id x hx => ?_, fun env request name given context => ?_,
    fun d file t e f struct he hcore => ⟨fun id hid => ?_, fun hnone => ?_⟩,
    fun d file t e f enumeration he hcore id hid => ?_, fun q => Graph.work_idle q s hsealed⟩
  · obtain ⟨d, hd, hf⟩ := List.mem_flatMap.1 hf
    exact exists_definition?_of_mem (hreferences d hd _ (innermost_mem_references_of_outputs hf))
  · obtain ⟨d, hd, hf⟩ := List.mem_flatMap.1 hf
    exact exists_definition?_of_mem (hreferences d hd _ (innermost_mem_references_of_inputs hf))
  · refine exists_fields_of_define (htold _ hx) fun name description members hmembers => ?_
    rw [Graph.checkAll_eq_ok]
    intro member hmember
    refine Graph.checkAll_eq_ok.1 hvalid.members member (List.mem_flatMap.2 ⟨x, ?_, ?_⟩)
    · exact List.mem_cons_of_mem _ (List.mem_map.2 ⟨_, hx, rfl⟩)
    · rw [hmembers]
      exact hmember
  · unfold Execution.executeAnew
    rw [Work.run_bind_of_ok (run_retell htold)]
    rfl
  · have hnode : s.coreWith (some d) e.core = .ok (.node id) := by
      rw [hcore, Session.coreWith, Session.nodeWith, hid]
    exact Graph.run_work_of_sealed hsealed he hnode
  · have hnode : s.coreWith (some d) e.core = .error (.sealedSession struct.name f.written) := by
      rw [hcore, Session.coreWith, Session.nodeWith, hnone]
    exact Graph.run_work_of_sealed hsealed he hnode
  · have hnode : ∃ x, s.coreWith (some d) e.core = .ok x := by
      rw [hcore, Session.coreWith, Session.nodeWith, hid]
      split
      · exact ⟨_, rfl⟩
      · exact ⟨_, rfl⟩
    obtain ⟨x, hx⟩ := hnode
    exact ⟨_, Graph.run_work_of_sealed hsealed he hx⟩

namespace looped

/-- The struct is compiled from both sides, then the schema follows. -/
def assembling : List Turn := [typeTurn .input, typeTurn .output, .assemble Graph.joinedName [offer]]

private theorem after_types : after (session []) (assembling.take 2) = both := by
  have hinput : (typeTurn .input).next (session []) = session [taken] := congrArg Prod.snd (run_typeTurn rfl)
  have houtput : (typeTurn .output).next (session [taken]) = both := congrArg Prod.snd (run_typeTurn rfl)
  show (typeTurn .output).next ((typeTurn .input).next (session [])) = both
  rw [hinput, houtput]

private theorem assembles_schema : Assembles (session []) assembling schema :=
  ⟨assembling.take 2, Graph.joinedName, [offer], [], rfl, by rw [after_types, run_assemble]⟩

private theorem after_assembling : after (session []) assembling = both.close := by
  show after (session []) (assembling.take 2 ++ [.assemble Graph.joinedName [offer]]) = _
  rw [after_append, after_types]
  show (Work.run (assemble Graph.joinedName [offer]) both).2 = _
  rw [run_assemble]

/-- A struct that nothing in the file refers to. -/
def stranger : Idl.Struct := ⟨.struct, 1, "T", [], none⟩

private theorem expand_stranger :
    expandType looped [] file (.declared (.struct stranger)) = .ok (.bare (.struct file stranger)) := by cbv

end looped

/-- In the sealed session, the struct has its node, and a struct that is not in the schema is refused. -/
theorem hasAll_of_assembles_looped :
    let s := after (looped.session []) looped.assembling
    Assembles (looped.session []) looped.assembling looped.schema ∧ HasAll s looped.schema ∧
      Work.run (Request.compile .input looped.file (.named 1 "S")).work s =
        (.ok (.type (.named (.node 0))), s) ∧
      Work.run (Request.compile .input looped.file (.declared (.struct looped.stranger))).work s =
        (.error (.compile (.sealedSession "T" looped.file.written)), s) := by
  intro s
  have hall : HasAll s looped.schema :=
    hasAll_of_assembles false Graph.declaredName looped looped.assembling looped.schema looped.assembles_schema
  have hs : s = looped.both.close := looped.after_assembling
  have hlibrary : s.library = looped := by rw [hs]; rfl
  obtain ⟨hfound, -⟩ := hall.struct .input looped.file (.named 1 "S") _ _ _ (hlibrary ▸ looped.expand_named) rfl
  obtain ⟨-, hrefused⟩ := hall.struct .input looped.file (.declared (.struct looped.stranger)) _ _ _
    (hlibrary ▸ looped.expand_stranger) rfl
  refine ⟨looped.assembles_schema, hall, hfound 0 ?_, hrefused ?_⟩
  · rw [hs]
    decide +kernel
  · rw [hs]
    decide +kernel

end ThriftGateway.Schema
