import ThriftGateway.Proofs.Graph.Compilable
import ThriftGateway.Proofs.Schema.Checking

/-!
# Which functions have a schema

If what the exposed functions reach can be compiled, and no struct needs itself as an argument (`Requires`), the schema
of the functions is assembled (`exists_schema`): its types come from nodes with names of their own, so they are legal
and their names are distinct, and an input object needs only what its struct needs.
-/

namespace ThriftGateway.Schema

open Graph (Compilable Completes Core Direction Fields Gives GraphType InputField IsLegalName IsMade Meets NamedType
  Node NodeKey OutputField Reaches Scalar Session Stable Work expandType)
open Idl (Function TypeExpr)
open Source (Library Path)

variable {l : Library} {enumsAsInts : Bool} {start : Direction → Path → TypeExpr → Prop} {offers : List Offer}

/-! ### Collecting -/

/-- What a type of a schema is: a scalar itself, and a node what it is with its fields. -/
def Describes (s : Session) (l : Library) (entry : NamedType × Definition) : Prop :=
  match entry.1 with
  | .scalar x => entry.2 = .scalar x
  | .node id => ∃ key node fields, s.nodes[id]? = some (key, node) ∧ s.FieldsFor l node fields ∧
      definitionOf node fields = some entry.2

theorem Describes.of_extends {s s' : Session} (hs : s.Extends s') {entry : NamedType × Definition}
    (h : Describes s l entry) : Describes s' l entry := by
  obtain ⟨t, d⟩ := entry
  cases t with
  | scalar x => exact h
  | node id =>
    obtain ⟨key, node, fields, hentry, hfields, hd⟩ := h
    exact ⟨key, node, fields, hs.nodes_getElem? hentry, Graph.fieldsFor_stable l node s s' hs fields hfields, hd⟩

/-- What is referred to can be described. -/
private theorem define_completes (h : Compilable l enumsAsInts start) (t : NamedType) :
    Completes (Session.IsReady l enumsAsInts start) (define t) fun s d => ∀ x, d = some x → Describes s l (t, x) := by
  cases t with
  | scalar x => exact Completes.pure fun s _ y hy => by cases hy; rfl
  | node id =>
    have hentry : ∀ {s : Session} {node : Node}, s.node? id = some node → ∃ key, s.nodes[id]? = some (key, node) := by
      intro s node hn
      obtain ⟨⟨key, node⟩, he, rfl⟩ := Option.map_eq_some_iff.1 hn
      exact ⟨key, he⟩
    refine Completes.look fun s₀ hs₀ => ?_
    split
    · exact Completes.pure fun s _ _ x hx => by cases hx
    · rename_i name members description hn
      obtain ⟨key, he⟩ := hentry hn
      refine Completes.pure fun s _ hs x hx => ⟨key, _, .none, hs.nodes_getElem? he, trivial, hx⟩
    · rename_i node _ hn
      obtain ⟨key, he⟩ := hentry hn
      have hmade := hs₀.made _ (List.mem_of_getElem? he)
      refine Completes.bind (Graph.fieldsFor_stable l node) (Graph.nodeFields_completes h hmade) fun fields _ => ?_
      exact Completes.pure fun s _ hfields hs x hx => ⟨key, node, fields, hs.nodes_getElem? he, hfields, hx⟩

private theorem collectTypes_completes (h : Compilable l enumsAsInts start) (fuel : Nat)
    (met : List (NamedType × Definition)) (pending : List NamedType) :
    Completes (Session.IsReady l enumsAsInts start) (collectTypes fuel met pending)
      fun s types => (∀ e ∈ met, Describes s l e) → ∀ e ∈ types, Describes s l e := by
  induction fuel, met, pending using collectTypes.induct with
  | case1 fuel met =>
    rw [collectTypes_nil]
    exact Completes.pure fun s _ h => h
  | case2 fuel met t pending hmet ih =>
    rw [collectTypes_of_met hmet]
    exact ih
  | case3 met t pending hmet =>
    rw [collectTypes_zero hmet]
    exact Completes.pure fun s _ h => h
  | case4 met t pending hmet fuel ihNone ihSome =>
    rw [collectTypes_succ hmet]
    refine Completes.bind ?_ (define_completes h t) fun d _ => ?_
    · exact fun s s' hs d hd x hx => (hd x hx).of_extends hs
    · cases d with
      | none => exact ihNone.mono fun s types _ htypes _ => htypes
      | some d =>
        refine (ihSome d).mono fun s types _ htypes hd hmet => htypes fun e he => ?_
        rcases List.mem_append.1 he with he | he
        · exact hmet e he
        · obtain rfl := List.mem_singleton.1 he
          exact hd d rfl

/-- No type is collected twice. -/
private theorem collectTypes_nodup (fuel : Nat) {met : List (NamedType × Definition)} (pending : List NamedType)
    (hmet : (met.map Prod.fst).Nodup) :
    Gives (collectTypes fuel met pending) fun types => (types.map Prod.fst).Nodup := by
  induction fuel, met, pending using collectTypes.induct with
  | case1 fuel met =>
    rw [collectTypes_nil]
    exact Gives.pure hmet
  | case2 fuel met t pending h ih =>
    rw [collectTypes_of_met h]
    exact ih hmet
  | case3 met t pending h =>
    rw [collectTypes_zero h]
    exact Gives.pure hmet
  | case4 met t pending h fuel ihNone ihSome =>
    rw [collectTypes_succ h]
    refine Gives.after fun d => ?_
    cases d with
    | none => exact ihNone hmet
    | some d =>
      refine ihSome d ?_
      have hnew : t ∉ met.map Prod.fst := by simpa using h
      rw [List.map_append, List.nodup_append]
      refine ⟨hmet, List.nodup_singleton t, ?_⟩
      intro t' ht' t'' ht'' heq
      obtain rfl : t'' = t := List.mem_singleton.1 ht''
      exact hnew (heq ▸ ht')

/-! ### Legal types with names of their own -/

private theorem name_of_definitionOf {node : Node} {fields : Fields} {d : Definition}
    (h : definitionOf node fields = some d) : d.name = node.name := by
  unfold definitionOf at h
  split at h <;> cases h <;> rfl

/-- What a node is made for is legal in a schema. -/
private theorem isLegal_of_isMade {s : Session} {key : NodeKey} {node : Node} (hm : IsMade l start (key, node))
    {fields : Fields}
    (hf : s.FieldsFor l node fields) {d : Definition} (hd : definitionOf node fields = some d) : d.IsLegal := by
  cases hm with
  | input hm hn =>
    cases fields with
    | input xs =>
      cases hd
      exact ⟨hn, hf.1, fun x hx => (hf.2 x hx).1⟩
    | output xs => cases hd
    | none => cases hd
  | output hm hn =>
    cases fields with
    | output xs =>
      cases hd
      refine ⟨hn, hf.1, fun x hx => ⟨(hf.2 x hx).1, fun a ha => ?_⟩⟩
      rw [(hf.2 x hx).2] at ha
      cases ha
    | input xs => cases hd
    | none => cases hd
  | enumeration hn hne hmembers =>
    cases hd
    exact ⟨hn, hne, hmembers⟩

/-- A described type has the name that the session knows it by. -/
private theorem Describes.name_eq {s : Session} {e : NamedType × Definition} (he : Describes s l e) :
    e.2.name = s.nameOf e.1 := by
  obtain ⟨t, d⟩ := e
  cases t with
  | scalar x =>
    obtain rfl : d = .scalar x := he
    rfl
  | node id =>
    obtain ⟨key, node, fields, hentry, -, hd⟩ := he
    show d.name = ((s.node? id).map Node.name).getD ""
    rw [name_of_definitionOf hd, Session.node?, hentry]
    rfl

section Described

variable {s : Session} (hs : s.IsReady l enumsAsInts start)

include hs

private theorem Describes.isLegal {e : NamedType × Definition} (he : Describes s l e) : e.2.IsLegal := by
  obtain ⟨t, d⟩ := e
  cases t with
  | scalar x =>
    obtain rfl : d = .scalar x := he
    trivial
  | node id =>
    obtain ⟨key, node, fields, hentry, hfields, hd⟩ := he
    exact isLegal_of_isMade (hs.made _ (List.mem_of_getElem? hentry)) hfields hd

/-- Described types that go by the same name are the same. -/
private theorem Describes.eq_of_nameOf {e e' : NamedType × Definition} (he : Describes s l e) (he' : Describes s l e')
    (h : s.nameOf e.1 = s.nameOf e'.1) : e.1 = e'.1 := by
  have hnode : ∀ {id : Nat} {d : Definition}, Describes s l (.node id, d) →
    s.nodeNames[id]? = some (s.nameOf (.node id)) := by
    rintro id d ⟨key, node, fields, hentry, -, -⟩
    simp [Session.nodeNames, Session.nameOf, Session.node?, hentry]
  have hapart : ∀ {id : Nat} {d : Definition} (x : Scalar), Describes s l (.node id, d) →
    s.nameOf (.node id) ≠ x.name :=
    fun x hd heq => (hs.distinct.reserved _ x.name_mem_reservedNames).2 (heq ▸ List.mem_of_getElem? (hnode hd))
  obtain ⟨t, d⟩ := e
  obtain ⟨t', d'⟩ := e'
  cases t with
  | scalar x =>
    cases t' with
    | scalar x' => exact congrArg NamedType.scalar (Scalar.name_injective h)
    | node id' => exact absurd h.symm (hapart x he')
  | node id =>
    cases t' with
    | scalar x' => exact absurd h (hapart x' he)
    | node id' =>
      have hid := hnode he
      obtain ⟨hlt, -⟩ := List.getElem?_eq_some_iff.1 hid
      exact congrArg NamedType.node ((List.getElem?_inj hlt hs.distinct.nodup).1 (by rw [hid, hnode he', h]))

/-- The names of described types, each described once, are distinct, and none is that of the root. -/
private theorem nodup_names {types : List (NamedType × Definition)} (htypes : ∀ e ∈ types, Describes s l e)
    (hnodup : (types.map Prod.fst).Nodup) : (rootName :: types.map fun e => e.2.name).Nodup := by
  refine List.nodup_cons.2 ⟨fun hroot => ?_, ?_⟩
  · obtain ⟨⟨t, d⟩, he, hname⟩ := List.mem_map.1 hroot
    have hd := htypes _ he
    rw [hd.name_eq] at hname
    cases t with
    | scalar x =>
      have hname : x.name = rootName := hname
      obtain (_ | _ | _ | _ | ⟨_ | _ | _⟩) := x <;> exact absurd hname (by decide)
    | node id =>
      obtain ⟨key, node, fields, hentry, -, -⟩ := hd
      have hmem : node.name ∈ s.nodeNames := List.mem_map.2 ⟨_, List.mem_of_getElem? hentry, rfl⟩
      have hname : node.name = rootName := by rw [← hname]; simp [Session.nameOf, Session.node?, hentry]
      exact (hs.distinct.reserved rootName (by decide)).2 (hname ▸ hmem)
  · have hnames : (types.map fun e => e.2.name) = types.map fun e => s.nameOf e.1 :=
      List.map_congr_left fun e he => (htypes e he).name_eq
    rw [hnames]
    refine List.Nodup.map_on (fun e he e' he' heq => ?_) hnodup.of_map
    exact List.inj_on_of_nodup_map hnodup he he' ((htypes e he).eq_of_nameOf hs (htypes e' he') heq)

end Described

/-! ### Structs that need others -/

/-- As an argument, a struct needs another one: it has a field that must be given and stands for the other one itself,
through typedefs and not through a list.  Structs are known by their files and names. -/
def Requires (l : Library) (start : Direction → Path → TypeExpr → Prop) (k k' : Path × String) : Prop :=
  ∃ struct f struct', Meets l start .input (.struct k.1 struct) ∧ struct.name = k.2 ∧ f ∈ struct.fields ∧
    expandType l [] k.1 (.field f) = .ok ⟨[.nonNull], .struct k'.1 struct'⟩ ∧ struct'.name = k'.2

/-- The struct that a node has been made for. -/
def structOf (s : Session) : NamedType → Path × String
  | .node id =>
    match s.node? id with
    | some (.input _ file struct) | some (.output _ file struct) => (file, struct.name)
    | _ => (.root, "")
  | .scalar _ => (.root, "")

private theorem wrapped_eq_nonNull {ws : List Graph.Wrapping} {t t' : NamedType}
    (h : Graph.wrapped ws t = .nonNull (.named t')) : ws = [.nonNull] ∧ t = t' := by
  cases ws with
  | nil => cases h
  | cons w ws =>
    cases w with
    | list => cases h
    | nonNull =>
      cases ws with
      | nil =>
        cases h
        exact ⟨rfl, rfl⟩
      | cons w ws => cases w <;> cases h

section Needing

variable {s : Session} (hs : s.IsReady l enumsAsInts start)

include hs

/-- What is described as an input object is a struct as an argument. -/
private theorem exists_struct_of_describes {t : NamedType} {name : String} {description : Option String}
    {fields : List InputField} (h : Describes s l (t, .input name description fields)) :
    ∃ id name file struct, t = .node id ∧
      s.nodes[id]? = some (⟨file.written, struct.name, some .input⟩, .input name file struct) ∧
      Meets l start .input (.struct file struct) ∧ s.AreInputs l file struct fields := by
  cases t with
  | scalar x => cases h
  | node id =>
    obtain ⟨key, node, xs, hentry, hfields, hd⟩ := h
    have hmade := hs.made _ (List.mem_of_getElem? hentry)
    cases hmade with
    | input hm hn =>
      cases xs with
      | input xs =>
        cases hd
        exact ⟨id, _, _, _, rfl, hentry, hm, hfields⟩
      | output xs => cases hd
      | none => cases hd
    | output hm hn => cases xs <;> cases hd
    | enumeration hn hne hmembers => cases hd

/-- An input object needs only what its struct needs. -/
private theorem requires_of_needs {schema : Schema} (htypes : ∀ e ∈ schema.types, Describes s l e) {t t' : NamedType}
    (h : schema.Needs t t') : Requires l start (structOf s t) (structOf s t') := by
  obtain ⟨name, description, fields, ht, ⟨x, hx, htype⟩, name', description', fields', ht'⟩ := h
  obtain ⟨id, n, file, struct, rfl, hentry, hm, hfields⟩ := exists_struct_of_describes hs (htypes _ ht)
  obtain ⟨id', n', file', struct', rfl, hentry', -, -⟩ := exists_struct_of_describes hs (htypes _ ht')
  obtain ⟨f, hf, -, e, u, he, hu, hshows⟩ := (hfields.2 x hx).2 (by rw [htype]; rfl)
  rw [htype] at hu
  obtain ⟨haround, rfl⟩ := wrapped_eq_nonNull hu.symm
  obtain ⟨key, node, hkey, hnode⟩ := hshows id' rfl
  obtain ⟨rfl, -⟩ := Prod.mk.inj (Option.some.inj (hnode.symm.trans hentry'))
  obtain ⟨around, core⟩ := e
  obtain rfl : around = [.nonNull] := haround
  have hstruct : structOf s (.node id) = (file, struct.name) := by simp [structOf, Session.node?, hentry]
  have hstruct' : structOf s (.node id') = (file', struct'.name) := by simp [structOf, Session.node?, hentry']
  rw [hstruct, hstruct']
  cases core with
  | scalar y => cases hkey
  | enumeration file'' y => simp [Core.key?] at hkey
  | struct file'' y =>
    simp only [Core.key?, Option.some.injEq, Graph.NodeKey.mk.injEq, and_true] at hkey
    obtain ⟨hfile, hname⟩ := hkey
    obtain rfl : file'' = file' := congrArg (fun p => Source.Path.mk p.components) hfile
    exact ⟨struct, f, y, hm, rfl, hf, he, hname⟩

end Needing

/-! ### Assembling -/

/-- The functions that are exposed, with the offers they belong to. -/
def exposed (offers : List Offer) : List (Offer × Function) := (offeredFunctions offers).filter fun x => x.1.offers x.2

/-- What assembling begins with: results and arguments of exposed functions. -/
inductive Begins (offers : List Offer) : Direction → Path → TypeExpr → Prop
  | result {o : Offer} {f : Function} : (o, f) ∈ exposed offers → Begins offers .output o.file f.result
  | argument {o : Offer} {f : Function} {a : Idl.Field} : (o, f) ∈ exposed offers → a ∈ f.arguments →
      Begins offers .input o.file (.field a)

private theorem addRootField_completes (h : Compilable l enumsAsInts (Begins offers)) {o : Offer} {f : Function}
    (hf : o.offers f = true → (o, f) ∈ exposed offers ∧ IsLegalName (Graph.joinedName o.service.name f.name))
    (fields : List RootField) :
    Completes (Session.IsReady l enumsAsInts (Begins offers)) (addRootField Graph.joinedName o fields f)
      fun _ rs => (fields ≠ [] ∨ o.offers f = true → rs ≠ []) ∧ ∀ r ∈ rs, r ∈ fields ∨ r.IsLegal := by
  have hreport : ∀ n, Completes (Session.IsReady l enumsAsInts (Begins offers))
      (modify fun s => s.report n : Work Graph.CompileError Unit) fun _ _ => True :=
    fun n => Completes.report n fun s hs => hs.report n
  unfold addRootField
  cases ho : o.offers f with
  | false =>
    rw [if_pos (show (!false) = true from rfl)]
    refine Completes.after (hreport _) fun _ => Completes.pure fun s _ => ⟨fun hne => ?_, fun r hr => Or.inl hr⟩
    exact hne.resolve_right (by simp)
  | true =>
    obtain ⟨hexposed, hname⟩ := hf ho
    have hadd : Completes (Session.IsReady l enumsAsInts (Begins offers)) (do
        let field ← Graph.compileFunction o.file f
        return Graph.upsert (·.field.name)
          ⟨{ field with name := Graph.joinedName o.service.name f.name }, ⟨o.name, f, o.hooks f.name⟩⟩ fields)
        fun _ rs => (fields ≠ [] ∨ true = true → rs ≠ []) ∧ ∀ r ∈ rs, r ∈ fields ∨ r.IsLegal := by
      refine Completes.bind (fun _ _ _ _ hx => hx) (Graph.compileFunction_completes h (.start (.result hexposed))
        fun a ha => .start (.argument hexposed ha)) fun field _ => Completes.pure fun s _ harguments => ?_
      refine ⟨fun _ => Graph.upsert_ne_nil _ _ _, fun r hr => ?_⟩
      rcases Graph.mem_of_mem_upsert hr with rfl | hr
      · exact Or.inr ⟨hname, harguments⟩
      · exact Or.inl hr
    rw [if_neg (by simp)]
    dsimp only
    split
    · exact Completes.after (hreport _) fun _ => hadd
    · exact hadd

private theorem addRootFields_completes (h : Compilable l enumsAsInts (Begins offers))
    (hroots : ∀ x ∈ exposed offers, IsLegalName (Graph.joinedName x.1.service.name x.2.name))
    {fs : List (Offer × Function)} (hfs : ∀ x ∈ fs, x ∈ offeredFunctions offers) (fields : List RootField) :
    Completes (Session.IsReady l enumsAsInts (Begins offers)) (addRootFields Graph.joinedName fs fields)
      fun _ rs => (fields ≠ [] ∨ (∃ x ∈ fs, x.1.offers x.2 = true) → rs ≠ []) ∧
        ∀ r ∈ rs, r ∈ fields ∨ r.IsLegal := by
  induction fs generalizing fields with
  | nil => exact Completes.pure fun s _ => ⟨fun hne => by simpa using hne, fun r hr => Or.inl hr⟩
  | cons x fs ih =>
    rw [List.forall_mem_cons] at hfs
    have hx : x.1.offers x.2 = true → x ∈ exposed offers ∧ IsLegalName (Graph.joinedName x.1.service.name x.2.name) :=
      fun ho => ⟨List.mem_filter.2 ⟨hfs.1, ho⟩, hroots x (List.mem_filter.2 ⟨hfs.1, ho⟩)⟩
    refine Completes.bind (fun _ _ _ _ hrs => hrs) (addRootField_completes h hx fields) fun rs _ => ?_
    refine (ih hfs.2 rs).mono fun s rs' _ hrs' hrs => ⟨fun hne => hrs'.1 ?_, fun r hr => ?_⟩
    · rcases hne with hne | ⟨y, hy, ho⟩
      · exact Or.inl (hrs.1 (Or.inl hne))
      · rcases List.mem_cons.1 hy with rfl | hy
        · exact Or.inl (hrs.1 (Or.inr ho))
        · exact Or.inr ⟨y, hy, ho⟩
    · exact (hrs'.2 r hr).elim (hrs.2 r) Or.inr

/-- In a session that has loaded documents, and made and named nothing yet, the schema of some exposed functions is
assembled: if what the functions reach can be compiled, root fields get legal names, and no struct needs itself as an
argument. -/
theorem exists_schema {l : Library} {enumsAsInts : Bool} {offers : List Offer} (log : List Notice)
    (hexposed : exposed offers ≠ [])
    (hroots : ∀ x ∈ exposed offers, IsLegalName (Graph.joinedName x.1.service.name x.2.name))
    (hcompilable : Compilable l enumsAsInts (Begins offers))
    (hfinite : ∀ k, ¬Relation.TransGen (Requires l (Begins offers)) k k) :
    ∃ schema s', Work.run (assemble Graph.joinedName offers)
      { Session.fresh enumsAsInts Graph.declaredName with library := l, log } = (.ok schema, s') := by
  have hfresh := Session.fresh_distinct enumsAsInts Graph.declaredName
  have hready : Session.IsReady l enumsAsInts (Begins offers)
      { Session.fresh enumsAsInts Graph.declaredName with library := l, log } :=
    ⟨rfl, rfl, rfl, rfl, ⟨hfresh.nodup, hfresh.used, hfresh.reserved⟩, by simp [Session.fresh]⟩
  obtain ⟨root, s, hroot, -, hs, hne, hlegal⟩ :=
    addRootFields_completes hcompilable hroots (fun _ hx => hx) [] _ hready
  obtain ⟨types, s', htypes, -, hs', hdescribes⟩ := collectTypes_completes hcompilable (typeBound s) []
    (outputReferences (root.map RootField.field)) s hs
  have hdescribes := hdescribes (by simp)
  have hlegal : ∀ r ∈ root, r.IsLegal := fun r hr => (hlegal r hr).resolve_left List.not_mem_nil
  have hdefinitions : ∀ d ∈ (⟨root, types⟩ : Schema).definitions, d.IsLegal := by
    intro d hd
    rcases List.mem_cons.1 hd with rfl | hd
    · refine ⟨of_decide_eq_true (by decide +kernel), fun hnil => ?_, fun x hx => ?_⟩
      · obtain ⟨x, hx⟩ := List.exists_mem_of_ne_nil _ hexposed
        exact hne (Or.inr ⟨x, List.mem_filter.1 hx⟩) (List.map_eq_nil_iff.1 hnil)
      · obtain ⟨r, hr, rfl⟩ := List.mem_map.1 hx
        exact hlegal r hr
    · obtain ⟨e, he, rfl⟩ := List.mem_map.1 hd
      exact (hdescribes e he).isLegal hs'
  have hnames : ((⟨root, types⟩ : Schema).definitions.map Definition.name).Nodup := by
    have hnodup := nodup_names hs' hdescribes (collectTypes_nodup _ _ (by simp) _ _ _ htypes)
    show (rootName :: (types.map Prod.snd).map Definition.name).Nodup
    rw [List.map_map]
    exact hnodup
  have hvalid := isValid_of_isLegal hdefinitions hnames fun t ht =>
    hfinite _ (ht.lift (structOf s') fun _ _ => requires_of_needs hs' hdescribes)
  refine ⟨⟨root, types⟩, s'.close, run_assemble_of_ok hroot ?_ htypes hvalid⟩
  exact Graph.checkAll_of_isLegalName fun r hr => (hlegal r hr).1

/-! ### A stock of items -/

/-- A struct that must have a tag and may have more of its kind, and a function from it to it. -/
def stock : Library where
  entries := [(file, ⟨1, [.declaration (.struct tag), .declaration (.enumeration kind), .declaration (.struct item),
    .service service], none⟩)]
where
  file : Path := ⟨["idl", "stock.thrift"]⟩
  tag : Idl.Struct := ⟨.struct, 1, "Tag", [], none⟩
  kind : Idl.Enumeration := ⟨1, "Kind", [⟨1, "A", none, none⟩, ⟨1, "B", some ⟨1, "0x10", true⟩, none⟩], none⟩
  tagField : Idl.Field := ⟨1, "tag", some 1, some .required, .named 1 "Tag", none, none⟩
  itemsField : Idl.Field := ⟨1, "items", some 2, none, .list 1 (.named 1 "Item"), none, none⟩
  countField : Idl.Field := ⟨1, "count", some 3, none, .base 1 "i32", some (.int ⟨1, "12", false⟩), none⟩
  kindField : Idl.Field := ⟨1, "kind", some 4, none, .named 1 "Kind", none, none⟩
  item : Idl.Struct := ⟨.struct, 1, "Item", [tagField, itemsField, countField, kindField], none⟩
  like : Idl.Field := ⟨1, "like", some 1, none, .named 1 "Item", none, none⟩
  function : Function := ⟨1, "find", .named 1 "Item", [like], [], false, none⟩
  service : Idl.Service := ⟨1, "Stock", none, [function], none⟩
  offer : Offer := ⟨.text "stock", file, service, false, []⟩

namespace stock

/-- The fields that are reached. -/
def fields : List Idl.Field := [like, tagField, itemsField, countField, kindField]

/-- The types that are reached. -/
def IsReached (t : TypeExpr) : Prop := t = .named 1 "Item" ∨ ∃ f ∈ fields, t = .field f

/-- What the types stand for. -/
def cores : List Core := [.struct file item, .struct file tag, .scalar .int, .enumeration file kind]

/-- Every type that is reached stands for one of the cores; what must be given is a tag. -/
private theorem expand {t : TypeExpr} (h : IsReached t) : ∃ e, expandType stock [] file t = .ok e ∧ e.core ∈ cores ∧
    (e.around = [.nonNull] → e.core = .struct file tag) := by
  have hitem : expandType stock [] file (.named 1 "Item") = .ok (.bare (.struct file item)) :=
    (Graph.expandType_of_resolve (r := ⟨file, .struct item⟩) rfl).trans Graph.expandType_struct
  have htag : expandType stock [] file (.named 1 "Tag") = .ok (.bare (.struct file tag)) :=
    (Graph.expandType_of_resolve (r := ⟨file, .struct tag⟩) rfl).trans Graph.expandType_struct
  have hkind : expandType stock [] file (.named 1 "Kind") = .ok (.bare (.enumeration file kind)) :=
    (Graph.expandType_of_resolve (r := ⟨file, .enumeration kind⟩) rfl).trans Graph.expandType_enumeration
  have hfields : ∀ f ∈ fields, ∃ e, expandType stock [] file (.field f) = .ok e ∧ e.core ∈ cores ∧
      (e.around = [.nonNull] → e.core = .struct file tag) := by
    simp only [fields, List.forall_mem_cons, Graph.expandType_field]
    refine ⟨⟨.bare (.struct file item), by rw [like, hitem]; rfl, ?_⟩,
      ⟨⟨[.nonNull], .struct file tag⟩, by rw [tagField, htag]; rfl, ?_⟩,
      ⟨⟨[.list], .struct file item⟩, by rw [itemsField, Graph.expandType_list, hitem]; rfl, ?_⟩,
      ⟨.bare (.scalar .int), by rw [countField, expandType]; rfl, ?_⟩,
      ⟨.bare (.enumeration file kind), by rw [kindField, hkind]; rfl, ?_⟩, by simp⟩ <;>
        simp [Graph.Expansion.bare, cores]
  rcases h with rfl | ⟨f, hf, rfl⟩
  · exact ⟨_, hitem, by simp [Graph.Expansion.bare, cores], by simp [Graph.Expansion.bare]⟩
  · exact hfields f hf

private theorem exposed_eq : exposed [offer] = [(offer, function)] := by
  simp [exposed, offeredFunctions, offer, service, Offer.offers]

/-- Nothing else is reached. -/
private theorem isReached {d : Direction} {f : Path} {t : TypeExpr} (h : Reaches stock (Begins [offer]) d f t) :
    f = file ∧ IsReached t := by
  induction h with
  | start h =>
    cases h with
    | result h =>
      rw [exposed_eq] at h
      cases List.mem_singleton.1 h
      exact ⟨rfl, Or.inl rfl⟩
    | argument h ha =>
      rw [exposed_eq] at h
      cases List.mem_singleton.1 h
      obtain rfl := List.mem_singleton.1 ha
      exact ⟨rfl, Or.inr ⟨like, List.mem_cons_self, rfl⟩⟩
  | field _ he hcore hx ih =>
    obtain ⟨rfl, ht⟩ := ih
    obtain ⟨e, he', hmem, -⟩ := expand ht
    cases he.symm.trans he'
    rw [hcore] at hmem
    simp only [cores, List.mem_cons, Core.struct.injEq, reduceCtorEq, List.not_mem_nil, or_false] at hmem
    rcases hmem with ⟨rfl, rfl⟩ | ⟨rfl, rfl⟩
    · exact ⟨rfl, Or.inr ⟨_, List.mem_cons_of_mem _ hx, rfl⟩⟩
    · cases hx

private theorem mem_cores {d : Direction} {core : Core} (h : Meets stock (Begins [offer]) d core) : core ∈ cores := by
  obtain ⟨f, t, e, hr, he, rfl⟩ := h
  obtain ⟨rfl, ht⟩ := isReached hr
  obtain ⟨e', he', hmem, -⟩ := expand ht
  cases he.symm.trans he'
  exact hmem

private theorem mem_fields {d : Direction} {f : Path} {x : Idl.Field}
    (h : Reaches stock (Begins [offer]) d f (.field x)) : x ∈ fields := by
  obtain ⟨-, h | ⟨y, hy, h⟩⟩ := isReached h
  · cases h
  · cases h
    exact hy

private theorem compilable : Compilable stock false (Begins [offer]) where
  resolves h := by
    obtain ⟨rfl, ht⟩ := isReached h
    obtain ⟨e, he, -⟩ := expand ht
    exact ⟨e, he⟩
  fields h := by
    have hall : ∀ x ∈ fields, IsLegalName x.name := by decide +kernel
    exact hall _ (mem_fields h)
  defaults h c hc := by
    have hall : ∀ x ∈ fields, ∀ c ∈ x.default, c.IsReadable := by
      simp only [fields, List.forall_mem_cons]
      refine ⟨by simp [like], by simp [tagField], by simp [itemsField], ?_, by simp [kindField], by simp⟩
      intro c hc
      cases hc
      exact ⟨by decide, fun _ => by decide⟩
    exact hall _ (mem_fields h) c hc
  structs h := by
    have hmem := mem_cores h
    simp only [cores, List.mem_cons, Core.struct.injEq, reduceCtorEq, List.not_mem_nil, or_false] at hmem
    rcases hmem with ⟨-, rfl⟩ | ⟨-, rfl⟩ <;> exact of_decide_eq_true (by decide +kernel)
  enumerations _ := by
    intro d f e h
    have hmem := mem_cores h
    simp only [cores, List.mem_cons, Core.enumeration.injEq, reduceCtorEq, List.not_mem_nil, or_false, false_or] at hmem
    obtain ⟨-, rfl⟩ := hmem
    have hmembers : ∀ m ∈ kind.members, Graph.IsLegalMember m.name := by decide +kernel
    refine ⟨of_decide_eq_true (by decide +kernel), by simp [kind], hmembers, ?_⟩
    simp only [kind, List.forall_mem_cons]
    refine ⟨by simp, fun l hl => ?_, by simp⟩
    cases hl
    exact ⟨by decide, fun h => by cases h⟩

/-- An item needs a tag, and a tag needs nothing. -/
private theorem finite (k : Path × String) : ¬Relation.TransGen (Requires stock (Begins [offer])) k k := by
  have hstep : ∀ {k k' : Path × String}, Requires stock (Begins [offer]) k k' → k.2 = "Item" ∧ k'.2 = "Tag" := by
    rintro ⟨f, name⟩ ⟨f', name'⟩ ⟨struct, x, struct', hm, rfl, hx, he, rfl⟩
    have hmem := mem_cores hm
    simp only [cores, List.mem_cons, Core.struct.injEq, reduceCtorEq, List.not_mem_nil, or_false] at hmem
    rcases hmem with ⟨rfl, rfl⟩ | ⟨rfl, rfl⟩
    · obtain ⟨e, he', -, htag⟩ := expand (Or.inr ⟨x, List.mem_cons_of_mem _ hx, rfl⟩)
      cases he.symm.trans he'
      cases htag rfl
      exact ⟨rfl, rfl⟩
    · cases hx
  intro h
  obtain ⟨_, hhead, -⟩ := Relation.TransGen.head'_iff.1 h
  obtain ⟨_, -, htail⟩ := Relation.TransGen.tail'_iff.1 h
  exact absurd ((hstep hhead).1.symm.trans (hstep htail).2) (by decide)

end stock

/-- The function of the stock has a schema. -/
theorem exists_schema_stock :
    ∃ schema s', Work.run (assemble Graph.joinedName [stock.offer])
      { Session.fresh false Graph.declaredName with library := stock, log := [] } = (.ok schema, s') :=
  exists_schema [] (by rw [stock.exposed_eq]; exact List.cons_ne_nil _ _)
    (by
      rw [stock.exposed_eq]
      intro x hx
      cases List.mem_singleton.1 hx
      exact of_decide_eq_true (by decide +kernel))
    stock.compilable stock.finite

end ThriftGateway.Schema
