import ThriftGateway.Proofs.Graph.Making
import ThriftGateway.Proofs.Graph.Matching

/-!
# Requests in other orders

Two runs may make the same requests to compile in any two orders and read the fields of the nodes whenever they like.
If all requests succeed and in the end the fields of every struct have been read, both runs leave the same graph up to
the numbers and the names of nodes (`sameGraph_of_requests`): nodes are matched by their keys, what is told of matching
ones is the same, and only the numbers behind preferred names depend on the order.  This needs that different
declarations have different keys, which they have wherever all declarations are reached by references
(`keyed_of_references`).
-/

namespace ThriftGateway.Graph

open Idl (Field Function TypeExpr)
open Source (Library Path)

variable {α : Type}

/-! ### Runs -/

/-- The steps that make requests one after another. -/
def asking (r : List Request) : List Step := r.map .ask

namespace Session

variable (s : Session)

/-- The session after requests. -/
def after (r : List Request) : Session := s.steps (asking r)

/-- All requests succeed, each when it is made. -/
def AnswersAll (s : Session) : List Request → Prop
  | [] => True
  | q :: r => (∃ a, (Work.run q.work s).1 = .ok a) ∧ (s.step (.ask q)).AnswersAll r

/-- A session with a library in which no nodes have been made and no names given out. -/
structure IsNew (l : Library) (enumsAsInts : Bool) (naming : TypeNaming) : Prop where
  nodes : s.nodes = []
  names : s.names = .fresh
  library : s.library = l
  enumsAsInts : s.enumsAsInts = enumsAsInts
  naming : s.naming = naming

/-- In the end, the fields of all nodes with a direction, which are those of structs, have been asked for. -/
def ReadsAll (r : List Request) : Prop :=
  ∀ id key node, (s.after r).nodes[id]? = some (key, node) → key.direction ≠ none → .fields id ∈ r

end Session

/-- What some requests begin with. -/
def Begun (r : List Request) (d : Direction) (file : Path) (t : TypeExpr) : Prop := ∃ q ∈ r, q.Begins d file t

/-- Cores that are reached and have the same key are the same. -/
def Keyed (l : Library) (start : Direction → Path → TypeExpr → Prop) : Prop :=
  ∀ d d' core core' key, Meets l start d core → Meets l start d' core' → core.key? d = some key →
    core'.key? d' = some key → core = core'

section Runs

variable {l : Library} {enumsAsInts : Bool} {naming : TypeNaming} {start : Direction → Path → TypeExpr → Prop}
  {s : Session} {r : List Request}

private theorem Session.IsNew.traces (h : s.IsNew l enumsAsInts naming) : s.Traces l enumsAsInts naming start where
  found id key node hn := by simp [h.nodes] at hn
  made key node hn := by simp [h.nodes] at hn
  named := by
    refine ⟨fun n hn => ?_, fun name hn => Or.inl ?_, fun _ n hn => ?_⟩
    · simp [h.nodes] at hn
    · simpa [h.names, NameTable.fresh] using hn
    · simp [h.nodes] at hn
  library := h.library
  enumsAsInts := h.enumsAsInts
  naming := h.naming

theorem Session.Traces.after (h : s.Traces l enumsAsInts naming start) (hr : s.AnswersAll r)
    (hstart : ∀ {d file t}, Begun r d file t → start d file t) :
    (s.after r).Traces l enumsAsInts naming start := by
  induction r generalizing s with
  | nil => exact h
  | cons q r ih =>
    obtain ⟨⟨a, ha⟩, hr⟩ := hr
    have hq : ∀ {d file t}, q.Begins d file t → start d file t :=
      fun hb => hstart ⟨q, List.mem_cons_self, hb⟩
    obtain ⟨-, hs, -⟩ := work_yields hq s _ a h (Prod.ext ha rfl)
    exact ih hs hr fun ⟨q', hq', hb⟩ => hstart ⟨q', List.mem_cons_of_mem _ hq', hb⟩

private theorem Session.AnswersAll.exists_answer (hr : s.AnswersAll r) {q : Request} (hq : q ∈ r) :
    ∃ a, s.Answers (asking r) q a := by
  induction r generalizing s with
  | nil => cases hq
  | cons q' r ih =>
    obtain ⟨⟨a, ha⟩, hr⟩ := hr
    rcases List.mem_cons.1 hq with rfl | hq
    · exact ⟨a, [], asking r, rfl, ha⟩
    · obtain ⟨a, before, after, heq, ha⟩ := ih hr hq
      exact ⟨a, .ask q' :: before, after, by rw [List.cons_append, ← heq]; rfl, ha⟩

private theorem Session.Answers.mem {q : Request} {a : Reply} (h : s.Answers (asking r) q a) : q ∈ r := by
  obtain ⟨before, after, heq, -⟩ := h
  have hmem : Step.ask q ∈ r.map Step.ask := by
    show Step.ask q ∈ asking r
    rw [heq]
    simp
  obtain ⟨q', hq', heq⟩ := List.mem_map.1 hmem
  cases heq
  exact hq'

/-- What is answered in a run is what is told in the end. -/
theorem Session.Traces.tells (h : (s.after r).Traces l enumsAsInts naming (Begun r)) {q : Request} {a : Reply}
    (ha : s.Answers (asking r) q a) : (s.after r).Tells l q a :=
  (work_yields (fun hb => ⟨q, ha.mem, hb⟩) _ _ a h ha.run).2.2

/-! ### Everything that is reached is told of -/

private theorem forall₂_of_mem {β : Type} {R : α → β → Prop} {xs : List α} {ys : List β}
    (h : List.Forall₂ R xs ys) {x : α} (hx : x ∈ xs) : ∃ y, R x y := by
  induction h with
  | nil => cases hx
  | cons hy _ ih =>
    rcases List.mem_cons.1 hx with rfl | hx
    · exact ⟨_, hy⟩
    · exact ih hx

private theorem GathersStruct.exists_of_mem {R : Field → α → Prop} {nameOf : α → String} {placeholder : α}
    {fs : List Field}
    {xs : List α} (h : GathersStruct R nameOf placeholder fs xs) {f : Field} (hf : f ∈ fs) : ∃ x, R f x := by
  cases h with
  | none hnil => cases hnil ▸ hf
  | fields _ h =>
    obtain ⟨all, hall, -⟩ := h
    exact forall₂_of_mem hall hf

/-- What a request begins with is told of in the answer. -/
private theorem Session.Tells.exists_type {t : Session} {q : Request} {a : Reply} (h : t.Tells l q a) {d : Direction}
    {file : Path} {ty : TypeExpr} (hb : q.Begins d file ty) : ∃ g, t.TellsType l d file ty g := by
  cases hb with
  | compile =>
    cases h with
    | compile h => exact ⟨_, h⟩
  | result =>
    cases h with
    | function h => exact ⟨_, h.type⟩
  | argument _ _ ha =>
    cases h with
    | function h =>
      obtain ⟨all, hall, -⟩ := h.arguments
      obtain ⟨x, hx⟩ := forall₂_of_mem hall ha
      exact ⟨x.type, hx.type⟩

/-- The node that is found for a struct that is reached is for that struct. -/
private theorem Session.Traces.node_of_struct {t : Session} (h : t.Traces l enumsAsInts naming start)
    (hkeyed : Keyed l start)
    {d : Direction} {file : Path} {struct : Idl.Struct} (hm : Meets l start d (.struct file struct)) {id : Nat}
    (hid : t.find? ⟨file.written, struct.name, some d⟩ = some id) :
    ∃ node, t.nodes[id]? = some (⟨file.written, struct.name, some d⟩, node) ∧
      (Core.struct file struct).IsMadeAs enumsAsInts d ⟨file.written, struct.name, some d⟩ node := by
  obtain ⟨hlt, heq, -⟩ := List.findIdx?_eq_some_iff_getElem.1 hid
  have hkey : t.nodes[id].1 = ⟨file.written, struct.name, some d⟩ := of_decide_eq_true heq
  have hentry : t.nodes[id]? = some (⟨file.written, struct.name, some d⟩, t.nodes[id].2) := by
    rw [List.getElem?_eq_getElem hlt, ← hkey]
  obtain ⟨d', core, hm', hmade⟩ := h.made _ _ (List.mem_of_getElem? hentry)
  obtain rfl := hkeyed _ _ _ _ _ hm' hm hmade.key? rfl
  refine ⟨_, hentry, ?_⟩
  have hd : d' = d := by
    have := hmade.key?
    simpa [Core.key?] using this
  exact hd ▸ hmade

/-- The fields of a struct that is reached are told of, if they have been read. -/
private theorem Session.Traces.exists_field (h : (s.after r).Traces l enumsAsInts naming (Begun r))
    (hr : s.AnswersAll r) (hreads : s.ReadsAll r) (hkeyed : Keyed l (Begun r)) {d : Direction} {file : Path}
    {struct : Idl.Struct} (hm : Meets l (Begun r) d (.struct file struct)) {id : Nat}
    (hid : (s.after r).find? ⟨file.written, struct.name, some d⟩ = some id) {f : Field}
    (hf : f ∈ struct.fields) : ∃ g, (s.after r).TellsType l d file (.field f) g := by
  obtain ⟨node, hentry, hmade⟩ := h.node_of_struct hkeyed hm hid
  obtain ⟨a, ha⟩ := hr.exists_answer (hreads _ _ _ hentry (by simp))
  cases h.tells ha with
  | @fields _ node' fields hn hfields =>
    rw [Session.node?, hentry] at hn
    obtain rfl : node = node' := by simpa using hn
    cases hmade with
    | input =>
      cases fields with
      | output | none => cases hfields
      | input xs =>
        obtain ⟨x, hx⟩ := GathersStruct.exists_of_mem hfields hf
        exact ⟨x.type, hx.type⟩
    | output =>
      cases fields with
      | input | none => cases hfields
      | output xs =>
        obtain ⟨x, hx⟩ := GathersStruct.exists_of_mem hfields hf
        exact ⟨x.type, hx.type⟩

/-- Whatever is reached is told of in the end. -/
private theorem Session.Traces.exists_type (h : (s.after r).Traces l enumsAsInts naming (Begun r))
    (hr : s.AnswersAll r) (hreads : s.ReadsAll r) (hkeyed : Keyed l (Begun r)) {d : Direction} {file : Path}
    {ty : TypeExpr} (hty : Reaches l (Begun r) d file ty) : ∃ g, (s.after r).TellsType l d file ty g := by
  induction hty with
  | start hb =>
    obtain ⟨q, hq, hb⟩ := hb
    obtain ⟨a, ha⟩ := hr.exists_answer hq
    exact (h.tells ha).exists_type hb
  | @field file _ ty e _ _ hreach he hcore hf ih =>
    obtain ⟨g, e', t, he', -, ht⟩ := ih
    obtain rfl := Except.ok.inj (he.symm.trans he')
    rw [hcore] at ht
    cases ht with
    | struct hid => exact h.exists_field hr hreads hkeyed ⟨file, ty, e, hreach, he, hcore⟩ hid hf

/-- For whatever is reached and can be a node, there is one in the end. -/
private theorem Session.Traces.exists_node (h : (s.after r).Traces l enumsAsInts naming (Begun r))
    (hr : s.AnswersAll r) (hreads : s.ReadsAll r) (hkeyed : Keyed l (Begun r)) {d : Direction} {core : Core}
    (hm : Meets l (Begun r) d core) {key : NodeKey} {node : Node} (hmade : core.IsMadeAs enumsAsInts d key node) :
    ∃ id, (s.after r).find? key = some id := by
  obtain ⟨file, ty, e, hreach, he, rfl⟩ := hm
  obtain ⟨g, e', t, he', -, ht⟩ := h.exists_type hr hreads hkeyed hreach
  obtain rfl := Except.ok.inj (he.symm.trans he')
  revert hmade ht
  generalize e.core = core
  intro hmade ht
  cases hmade with
  | input =>
    cases ht with
    | struct hid => exact ⟨_, hid⟩
  | output =>
    cases ht with
    | struct hid => exact ⟨_, hid⟩
  | enumeration hints =>
    cases ht with
    | integer h' => rw [h.enumsAsInts, hints] at h'; cases h'
    | enumeration _ hid => exact ⟨_, hid⟩

end Runs

/-! ### The same graph -/

/-- In the end of two runs, the nodes of both have the same keys, and nodes with the same key, their fields and all
other answers match.  In both, names are the preferred ones or these with numbers; if the preferred names differ and
none is reserved, the names are the same too. -/
structure SameGraph (naming : TypeNaming) (s s' : Session) (r r' : List Request) : Prop where
  nodup : ((s.after r).nodes.map Prod.fst).Nodup
  keys : ((s.after r).nodes.map Prod.fst).Perm ((s'.after r').nodes.map Prod.fst)
  nodes : ∀ key node node', (key, node) ∈ (s.after r).nodes → (key, node') ∈ (s'.after r').nodes →
    node.Resembles node'
  fields : ∀ key id id' xs xs', (s.after r).find? key = some id → (s'.after r').find? key = some id' →
    s.Answers (asking r) (.fields id) (.fields xs) → s'.Answers (asking r') (.fields id') (.fields xs') →
    FieldsMatch ((s.after r).Twins (s'.after r')) xs xs'
  replies : ∀ q a a', (∀ id, q ≠ .fields id) → s.Answers (asking r) q a → s'.Answers (asking r') q a' →
    RepliesMatch ((s.after r).Twins (s'.after r')) a a'
  given : ∀ n ∈ (s.after r).nodes ++ (s'.after r').nodes,
    n.2.name = preferredName naming n.1 ∨ ∃ k, n.2.name = NameTable.numbered (preferredName naming n.1) k
  kept : (s.after r).PrefersDistinct naming → ∀ key node node', (key, node) ∈ (s.after r).nodes →
    (key, node') ∈ (s'.after r').nodes → node'.name = node.name

section Both

variable {l : Library} {enumsAsInts : Bool} {naming : TypeNaming} {start : Direction → Path → TypeExpr → Prop}
  {t t' : Session}

/-- Every node is found by its key, so no two have the same. -/
private theorem Session.Traces.nodup (h : t.Traces l enumsAsInts naming start) : (t.nodes.map Prod.fst).Nodup := by
  rw [List.nodup_iff_injective_getElem]
  rintro ⟨i, hi⟩ ⟨j, hj⟩ heq
  rw [List.length_map] at hi hj
  simp only [List.getElem_map] at heq
  have hfi : t.find? t.nodes[i].1 = some i := h.found i _ _ (List.getElem?_eq_getElem hi)
  have hfj : t.find? t.nodes[j].1 = some j := h.found j _ _ (List.getElem?_eq_getElem hj)
  rw [heq, hfj] at hfi
  exact Fin.ext (Option.some.inj hfi).symm

/-- Nodes for what is reached, with the same key. -/
private theorem Core.IsMadeAs.resembles (hkeyed : Keyed l start) {d d' : Direction} {core core' : Core} {key : NodeKey}
    {node node' : Node} (hm : Meets l start d core) (hm' : Meets l start d' core')
    (h : core.IsMadeAs enumsAsInts d key node) (h' : core'.IsMadeAs enumsAsInts d' key node') :
    node.Resembles node' := by
  obtain rfl := hkeyed _ _ _ _ _ hm hm' h.key? h'.key?
  cases h with
  | input => cases h'; exact .input
  | output => cases h'; exact .output
  | enumeration _ hmembers =>
    cases h' with
    | enumeration _ hmembers' =>
      obtain rfl := Except.ok.inj (hmembers.symm.trans hmembers')
      exact .enumeration

private theorem Session.Traces.resembles (h : t.Traces l enumsAsInts naming start)
    (h' : t'.Traces l enumsAsInts naming start)
    (hkeyed : Keyed l start) {key : NodeKey} {node node' : Node} (hn : (key, node) ∈ t.nodes)
    (hn' : (key, node') ∈ t'.nodes) : node.Resembles node' := by
  obtain ⟨d, core, hm, hmade⟩ := h.made key node hn
  obtain ⟨d', core', hm', hmade'⟩ := h'.made key node' hn'
  exact hmade.resembles hkeyed hm hm' hmade'

private theorem Session.Traces.tells_matches (h : t.Traces l enumsAsInts naming start)
    (h' : t'.Traces l enumsAsInts naming start) {q : Request} (hq : ∀ id, q ≠ .fields id) {a a' : Reply}
    (ha : t.Tells l q a) (ha' : t'.Tells l q a') : RepliesMatch (t.Twins t') a a' := by
  have hints : t'.enumsAsInts = t.enumsAsInts := h'.enumsAsInts.trans h.enumsAsInts.symm
  cases ha with
  | compile ha =>
    cases ha' with
    | compile ha' => exact .type (ha.matches hints ha')
  | function ha =>
    cases ha' with
    | function ha' => exact .function (ha.matches hints ha')
  | fields => exact absurd rfl (hq _)

theorem Session.mem_of_find? {key : NodeKey} {id : Nat} (h : t.find? key = some id) :
    ∃ node, t.node? id = some node ∧ (key, node) ∈ t.nodes := by
  obtain ⟨hlt, heq, -⟩ := List.findIdx?_eq_some_iff_getElem.1 h
  have hkey : t.nodes[id].1 = key := of_decide_eq_true heq
  refine ⟨t.nodes[id].2, by simp [Session.node?, hlt], ?_⟩
  rw [← hkey]
  exact List.getElem_mem hlt

private theorem Session.Traces.fields_match (h : t.Traces l enumsAsInts naming start)
    (h' : t'.Traces l enumsAsInts naming start) (hkeyed : Keyed l start) {key : NodeKey} {id id' : Nat}
    {xs xs' : Fields} (hid : t.find? key = some id) (hid' : t'.find? key = some id')
    (hx : t.Tells l (.fields id) (.fields xs)) (hx' : t'.Tells l (.fields id') (.fields xs')) :
    FieldsMatch (t.Twins t') xs xs' := by
  obtain ⟨node, hn, hmem⟩ := Session.mem_of_find? hid
  obtain ⟨node', hn', hmem'⟩ := Session.mem_of_find? hid'
  cases hx with
  | fields hnode hx =>
    obtain rfl := Option.some.inj (hn.symm.trans hnode)
    cases hx' with
    | fields hnode' hx' =>
      obtain rfl := Option.some.inj (hn'.symm.trans hnode')
      exact hx.matches (h'.enumsAsInts.trans h.enumsAsInts.symm) (h.resembles h' hkeyed hmem hmem') hx'

/-- The preferred names are those of the keys. -/
private theorem Session.PrefersDistinct.of_perm (h : t.PrefersDistinct naming)
    (hkeys : (t.nodes.map Prod.fst).Perm (t'.nodes.map Prod.fst)) : t'.PrefersDistinct naming where
  nodup := by
    have := (hkeys.map (preferredName naming)).nodup_iff.1 (by simpa [Function.comp_def] using h.nodup)
    simpa [Function.comp_def] using this
  unreserved n hn := by
    obtain ⟨n₀, hn₀, hkey⟩ := List.mem_map.1 (hkeys.mem_iff.2 (List.mem_map_of_mem (f := Prod.fst) hn))
    exact hkey ▸ h.unreserved n₀ hn₀

end Both

/-- A session that has made nodes for what a run reaches has no keys that the run has not. -/
private theorem Session.Traces.mem_keys {l : Library} {enumsAsInts : Bool} {naming : TypeNaming} {s t : Session}
    {r : List Request} (ht : t.Traces l enumsAsInts naming (Begun r))
    (h : (s.after r).Traces l enumsAsInts naming (Begun r)) (hr : s.AnswersAll r) (hreads : s.ReadsAll r)
    (hkeyed : Keyed l (Begun r)) {key : NodeKey} (hk : key ∈ t.nodes.map Prod.fst) :
    key ∈ (s.after r).nodes.map Prod.fst := by
  obtain ⟨⟨_, node⟩, hn, rfl⟩ := List.mem_map.1 hk
  obtain ⟨d, core, hm, hmade⟩ := ht.made _ node hn
  obtain ⟨id, hid⟩ := h.exists_node hr hreads hkeyed hm hmade
  obtain ⟨node', -, hmem⟩ := Session.mem_of_find? hid
  exact List.mem_map.2 ⟨_, hmem, rfl⟩

private theorem begun_congr {r r' : List Request} (h : ∀ q, (∀ id, q ≠ .fields id) → (q ∈ r ↔ q ∈ r')) :
    Begun r' = Begun r := by
  funext d file t
  have hfields : ∀ q : Request, q.Begins d file t → ∀ id, q ≠ .fields id := by
    rintro q hb id rfl
    cases hb
  refine propext ⟨?_, ?_⟩
  · rintro ⟨q, hq, hb⟩
    exact ⟨q, (h q (hfields q hb)).2 hq, hb⟩
  · rintro ⟨q, hq, hb⟩
    exact ⟨q, (h q (hfields q hb)).1 hq, hb⟩

/-! ### Where keys tell declarations apart -/

/-- No declaration of the documents has others inside, as is so with every file that is written. -/
def IsFlat (l : Library) : Prop := ∀ entry ∈ l.entries, ∀ d ∈ entry.2.declarations, d.inside = []

/-- A declaration is the only one of its name in its file, and has no others inside. -/
def StandsAlone (l : Library) (file : Path) (d : Idl.Declaration) : Prop :=
  d.inside = [] ∧ ∃ document, l.document? file = some document ∧ document.declarationsNamed d.name = [d]

section Alone

variable {l : Library} {start : Direction → Path → TypeExpr → Prop}

theorem StandsAlone.unique {file file' : Path} {d d' : Idl.Declaration} (h : StandsAlone l file d)
    (h' : StandsAlone l file' d') (hfile : file.written = file'.written) (hname : d.name = d'.name) :
    file = file' ∧ d = d' := by
  obtain ⟨components⟩ := file
  obtain ⟨components'⟩ := file'
  obtain rfl : components = components' := by simpa [Path.written] using hfile
  obtain ⟨-, document, hdocument, hd⟩ := h
  obtain ⟨-, document', hdocument', hd'⟩ := h'
  obtain rfl := Option.some.inj (hdocument.symm.trans hdocument')
  rw [hname, hd'] at hd
  exact ⟨rfl, (List.cons.inj hd).1.symm⟩

theorem standsAlone_of_expandType (hl : IsFlat l) {file : Path} {t : TypeExpr} (ht : t.inside = []) {e : Expansion}
    (he : expandType l [] file t = .ok e) : e.core.Satisfies (StandsAlone l) := by
  refine satisfies_of_expandType (fun reference file r hr => ?_) (fun file d hd x hx => ?_) (fun d hd => ?_) he
  · obtain ⟨document, hdocument, hn⟩ := Library.document_of_resolve hr
    have hmem : r.declaration ∈ document.declarationsNamed r.declaration.name := by rw [hn]; simp
    exact ⟨hl _ (Library.mem_of_document? hdocument) _ (List.mem_filter.1 hmem).1, document, hdocument, hn⟩
  · rw [hd.1] at hx
    cases hx
  · rw [ht] at hd
    cases hd

/-- Where compiling begins with types that have no declarations inside, it reaches no others. -/
private theorem inside_of_reaches (hl : IsFlat l) (hstart : ∀ d file t, start d file t → t.inside = []) {d : Direction}
    {file : Path} {t : TypeExpr} (h : Reaches l start d file t) : t.inside = [] := by
  induction h with
  | start hs => exact hstart _ _ _ hs
  | @field file file' t e struct f _ he hcore hf ih =>
    have hstruct := standsAlone_of_expandType hl ih he
    rw [hcore] at hstruct
    have hnil : struct.inside = [] := hstruct.1
    rw [Idl.Struct.inside_eq, List.eq_nil_iff_forall_not_mem] at hnil
    refine List.eq_nil_iff_forall_not_mem.2 fun x hx => hnil x (Idl.mem_insideAll.2 ⟨f, hf, ?_⟩)
    exact Idl.Field.inside_eq f ▸ hx

/-- If there are no declarations inside of types, neither in the documents nor where compiling begins, then everything
is reached by references, and what is reached is told apart by its key. -/
theorem keyed_of_references (hl : IsFlat l) (hstart : ∀ d file t, start d file t → t.inside = []) :
    Keyed l start := by
  have hmeets : ∀ {d core}, Meets l start d core → core.Satisfies (StandsAlone l) := by
    rintro d core ⟨file, t, e, hr, he, rfl⟩
    exact standsAlone_of_expandType hl (inside_of_reaches hl hstart hr) he
  intro d d' core core' key hm hm' hkey hkey'
  have hcore := hmeets hm
  have hcore' := hmeets hm'
  -- the key has the file and the name, and says by its direction whether it is of a struct or of an enumeration
  cases core with
  | scalar x => cases hkey
  | struct file struct =>
    obtain rfl := Option.some.inj hkey
    cases core' with
    | scalar x => cases hkey'
    | enumeration file' e => cases (NodeKey.mk.inj (Option.some.inj hkey')).2.2
    | struct file' struct' =>
      obtain ⟨hfile, hname, -⟩ := NodeKey.mk.inj (Option.some.inj hkey')
      obtain ⟨rfl, heq⟩ := StandsAlone.unique hcore hcore' hfile.symm hname.symm
      rw [Idl.Declaration.struct.inj heq]
  | enumeration file e =>
    obtain rfl := Option.some.inj hkey
    cases core' with
    | scalar x => cases hkey'
    | struct file' struct' => cases (NodeKey.mk.inj (Option.some.inj hkey')).2.2
    | enumeration file' e' =>
      obtain ⟨hfile, hname, -⟩ := NodeKey.mk.inj (Option.some.inj hkey')
      obtain ⟨rfl, heq⟩ := StandsAlone.unique hcore hcore' hfile.symm hname.symm
      rw [Idl.Declaration.enumeration.inj heq]

end Alone

/-! ### Structs with one field -/

namespace one

/-- A struct with one field, which holds an integer. -/
def struct (field : String) : Idl.Struct :=
  ⟨.struct, 1, "Foo", [⟨1, field, some 1, none, .base 1 "i32", none, none⟩], none⟩

/-- The key of such a struct in a file, seen as a result. -/
def key (file : Path) : NodeKey := ⟨file.written, "Foo", some .output⟩

variable {s : Session} {file : Path} {field : String} {t : TypeExpr}

/-- The struct gets a node if there is none with its key. -/
private theorem run_compile_of_new (hs : s.Distinct) (hsealed : s.isSealed = false) (hnaming : s.naming = declaredName)
    (ht : expandType s.library [] file t = .ok (.bare (.struct file (struct field))))
    (hf : s.find? (key file) = none) :
    ∃ name names log, Work.run (Request.compile .output file t).work s =
      (.ok (.type (.named (.node s.nodes.length))),
        { s with names, log, nodes := s.nodes ++ [(key file, .output name file (struct field))] }) := by
  have hlegal : IsLegalName (s.naming ⟨file.written, "Foo", false, false⟩) := by
    rw [hnaming]
    show IsLegalName "Foo"
    decide
  obtain ⟨name, names, log, hname, -⟩ := run_giveName_of_isLegalName hs hlegal
  have hmake : Work.run (makeStruct (some .output) file (struct field)) s =
      (.ok (.output name file (struct field)), { s with names, log }) := Work.run_bind_of_ok hname
  exact ⟨name, names, log, Session.run_compile_of_nodeFor ht (run_nodeFor_of_make hf hsealed hmake)⟩

/-- What is told of the field. -/
private theorem run_fields {name : String} {id : Nat} (hn : s.node? id = some (.output name file (struct field)))
    (hfield : checkName field = .ok ()) :
    Work.run (Request.fields id).work s =
      (.ok (.fields (.output [⟨field, .named (.scalar .int), [], none⟩])), s) := by
  have ht : expandType s.library [] file (.field ⟨1, field, some 1, none, .base 1 "i32", none, none⟩) =
      .ok ⟨[], .scalar .int⟩ := by
    rw [expandType_field, expandType]
    rfl
  have htype : Work.run (compileOutputField file ⟨1, field, some 1, none, .base 1 "i32", none, none⟩) s =
      (.ok ⟨field, .named (.scalar .int), [], none⟩, s) := Work.run_bind_of_ok (run_compileType_of_scalar ht)
  have hall : Work.run (structOutputFields file (struct field)) s =
      (.ok [⟨field, .named (.scalar .int), [], none⟩], s) := by
    have hfields : Work.run (compileOutputFields file (struct field).fields) s =
        (.ok [⟨field, .named (.scalar .int), [], none⟩], s) := Work.run_bind_of_ok htype
    exact Work.run_bind_of_ok hfields
  have hnames : checkAll checkName [field] = .ok () := checkAll_eq_ok.2 (by simpa using hfield)
  have hnode : Work.run (nodeFields (.output name file (struct field))) s =
      (.ok (.output [⟨field, .named (.scalar .int), [], none⟩]), s) := by
    refine (Work.run_bind_of_ok (Work.run_adapt_eq_ok.2 hall)).trans ?_
    refine (Work.run_bind_of_ok (Work.run_ofExcept_eq_ok.2 ⟨hnames, rfl⟩)).trans ?_
    rfl
  unfold Request.work
  rw [Work.run_bind_of_ok (Work.run_get s), hn]
  exact Work.run_adapt_eq_ok.2 (Work.run_bind_of_ok hnode)

/-- An open session that names types as they are declared, in which nodes have been made for such structs, each in a
file of its own. -/
structure Holds (l : Library) (made : List (Path × String)) (s : Session) : Prop where
  library : s.library = l
  naming : s.naming = declaredName
  isOpen : s.isSealed = false
  distinct : s.Distinct
  nodes : List.Forall₂ (fun x n => ∃ name, n = (key x.1, Node.output name x.1 (struct x.2))) made s.nodes

variable {l : Library} {made : List (Path × String)}

private theorem key_injective : Function.Injective key := by
  rintro ⟨components⟩ ⟨components'⟩ h
  obtain ⟨hfile, -⟩ := NodeKey.mk.inj h
  simpa [Path.written] using hfile

theorem Holds.keys (h : Holds l made s) : s.nodes.map Prod.fst = (made.map Prod.fst).map key := by
  obtain ⟨-, -, -, -, hnodes⟩ := h
  generalize s.nodes = nodes at hnodes
  induction hnodes with
  | nil => rfl
  | cons hx _ ih =>
    obtain ⟨name, rfl⟩ := hx
    rw [List.map_cons, List.map_cons, List.map_cons, ih]

/-- Compiling a type that stands for such a struct succeeds.  It makes a node unless there is one for its file. -/
theorem Holds.compile (h : Holds l made s) (ht : expandType l [] file t = .ok (.bare (.struct file (struct field)))) :
    (∃ a, (Work.run (Request.compile .output file t).work s).1 = .ok a) ∧
      Holds l (if file ∈ made.map Prod.fst then made else made ++ [(file, field)])
        (s.step (.ask (.compile .output file t))) := by
  rw [← h.library] at ht
  have hdistinct := (Session.work_steady (.compile .output file t)).distinct s h.distinct
  have hfound : s.find? (key file) = none ↔ file ∉ made.map Prod.fst := by
    have hkeys : key file ∈ s.nodes.map Prod.fst ↔ file ∈ made.map Prod.fst := by
      rw [h.keys, List.mem_map_of_injective key_injective]
    rw [← hkeys, Session.find?, List.findIdx?_eq_none_iff]
    simp only [List.mem_map, not_exists, not_and, decide_eq_false_iff_not]
  cases hf : s.find? (key file) with
  | some id =>
    have hrun := Session.run_compile_of_nodeFor ht (run_nodeFor_of_find? hf)
    have hmem : file ∈ made.map Prod.fst := by
      by_contra hmem
      rw [hfound.2 hmem] at hf
      cases hf
    rw [if_pos hmem, show s.step (.ask (.compile .output file t)) = s from congrArg Prod.snd hrun]
    exact ⟨⟨_, congrArg Prod.fst hrun⟩, h⟩
  | none =>
    obtain ⟨name, names, log, hrun⟩ := run_compile_of_new h.distinct h.isOpen h.naming ht hf
    rw [if_neg (hfound.1 hf), show s.step (.ask (.compile .output file t)) = _ from congrArg Prod.snd hrun]
    rw [hrun] at hdistinct
    refine ⟨⟨_, congrArg Prod.fst hrun⟩, h.library, h.naming, h.isOpen, hdistinct, ?_⟩
    exact List.rel_append h.nodes (.cons ⟨name, rfl⟩ .nil)

/-- Reading the fields of nodes that there are succeeds and changes nothing. -/
private theorem Holds.reads (h : Holds l made s) (hlegal : ∀ x ∈ made, checkName x.2 = .ok ()) {ids : List Nat}
    (hids : ∀ id ∈ ids, id < made.length) : s.AnswersAll (ids.map .fields) ∧ s.after (ids.map .fields) = s := by
  induction ids with
  | nil => exact ⟨trivial, rfl⟩
  | cons id ids ih =>
    rw [List.forall_mem_cons] at hids
    have hlt : id < s.nodes.length := h.nodes.length_eq ▸ hids.1
    obtain ⟨name, hnode⟩ := h.nodes.get hids.1 hlt
    have hn : s.node? id = some (.output name made[id].1 (struct made[id].2)) := by
      rw [Session.node?, List.getElem?_eq_getElem hlt]
      exact congrArg (fun n => some n.2) hnode
    have hrun := run_fields hn (hlegal _ (List.getElem_mem hids.1))
    have hstep : s.step (.ask (.fields id)) = s := congrArg Prod.snd hrun
    obtain ⟨hall, hafter⟩ := ih hids.2
    refine ⟨⟨⟨_, congrArg Prod.fst hrun⟩, ?_⟩, ?_⟩
    · rw [hstep]
      exact hall
    · show (s.step (.ask (.fields id))).after (ids.map .fields) = s
      rw [hstep, hafter]

/-- A session with a library. -/
def opened (l : Library) : Session := { Session.fresh false declaredName with library := l }

private theorem isNew_opened (l : Library) : (opened l).IsNew l false declaredName := ⟨rfl, rfl, rfl, rfl, rfl⟩

private theorem holds_opened (l : Library) : Holds l [] (opened l) :=
  have h := Session.fresh_distinct false declaredName
  ⟨rfl, rfl, rfl, ⟨h.nodup, h.used, h.reserved⟩, .nil⟩

/-- Two types that stand for such structs, and then the fields of all nodes. -/
private theorem exists_run (ids : List Nat) {file' : Path} {field' : String} {t' : TypeExpr}
    (ht : expandType l [] file t = .ok (.bare (.struct file (struct field))))
    (ht' : expandType l [] file' t' = .ok (.bare (.struct file' (struct field'))))
    (hfield : checkName field = .ok ()) (hfield' : checkName field' = .ok ())
    (hids : ∀ id, id ∈ ids ↔ id < if file' = file then 1 else 2) :
    let r := Request.compile .output file t :: .compile .output file' t' :: ids.map .fields
    (opened l).AnswersAll r ∧ (opened l).ReadsAll r ∧
      Holds l (if file' = file then [(file, field)] else [(file, field), (file', field')]) ((opened l).after r) := by
  intro r
  obtain ⟨hanswer, hfirst⟩ := (holds_opened l).compile ht
  obtain ⟨hanswer', hboth⟩ := hfirst.compile ht'
  simp only [List.map_nil, List.not_mem_nil, if_false, List.nil_append, List.map_cons, List.mem_singleton,
    List.singleton_append] at hfirst hboth
  have hlength : (if file' = file then [(file, field)] else [(file, field), (file', field')]).length =
      if file' = file then 1 else 2 := by split <;> rfl
  have hlegal : ∀ x ∈ (if file' = file then [(file, field)] else [(file, field), (file', field')]),
      checkName x.2 = .ok () := by
    split <;> simp [hfield, hfield']
  obtain ⟨hall, hafter⟩ := hboth.reads hlegal fun id hid => hlength ▸ (hids id).1 hid
  have hend : (opened l).after r = ((opened l).step (.ask (.compile .output file t))).step
      (.ask (.compile .output file' t')) := hafter
  refine ⟨⟨hanswer, hanswer', hall⟩, fun id key node hn _ => ?_, hend ▸ hboth⟩
  have hlt : id < ((opened l).after r).nodes.length := (List.getElem?_eq_some_iff.1 hn).1
  rw [hend, ← hboth.nodes.length_eq, hlength, ← hids] at hlt
  exact List.mem_cons_of_mem _ (List.mem_cons_of_mem _ (List.mem_map_of_mem hlt))

/-- Of two such structs declared in one file, the first one that is compiled has its fields read. -/
private theorem exists_answer (file : Path) {field field' : String} (hfield : checkName field = .ok ())
    (hfield' : checkName field' = .ok ()) :
    let r := [Request.compile .output file (.declared (.struct (struct field))),
      .compile .output file (.declared (.struct (struct field'))), .fields 0]
    (opened l).AnswersAll r ∧ (opened l).ReadsAll r ∧ ((opened l).after r).find? (key file) = some 0 ∧
      (opened l).Answers (asking r) (.fields 0) (.fields (.output [⟨field, .named (.scalar .int), [], none⟩])) := by
  intro r
  have hexpand : ∀ field, expandType l [] file (.declared (.struct (struct field))) =
      .ok (.bare (.struct file (struct field))) := fun field => expandType_struct
  obtain ⟨hr, hreads, hholds⟩ := exists_run [0] (hexpand field) (hexpand field') hfield hfield' fun id => by simp
  rw [if_pos rfl] at hholds
  obtain ⟨n, ns, ⟨name, rfl⟩, hnil, hnodes⟩ := List.forall₂_cons_left_iff.1 hholds.nodes
  obtain rfl := List.forall₂_nil_left_iff.1 hnil
  have hnodes : ((opened l).after r).nodes = [(key file, .output name file (struct field))] := hnodes
  have hn : ((opened l).after r).node? 0 = some (.output name file (struct field)) := by
    rw [Session.node?, hnodes]
    rfl
  obtain ⟨xs, hxs⟩ := hr.exists_answer (q := .fields 0) (by simp)
  obtain rfl := Except.ok.inj (congrArg Prod.fst (hxs.run.symm.trans (run_fields hn hfield)))
  exact ⟨hr, hreads, by rw [Session.find?, hnodes]; simp, hxs⟩

end one

/-! ### Runs in different orders -/

/-- Two runs that make the same requests to compile in any orders and read the fields of every struct in the end, all of
which succeed, leave the same graph, if different declarations that are reached have different keys. -/
theorem sameGraph_of_requests {l : Library} {enumsAsInts : Bool} {naming : TypeNaming} {s s' : Session}
    {r r' : List Request} (hs : s.IsNew l enumsAsInts naming) (hs' : s'.IsNew l enumsAsInts naming)
    (hr : s.AnswersAll r) (hr' : s'.AnswersAll r') (hsame : ∀ q, (∀ id, q ≠ .fields id) → (q ∈ r ↔ q ∈ r'))
    (hreads : s.ReadsAll r) (hreads' : s'.ReadsAll r') (hkeyed : Keyed l (Begun r)) :
    SameGraph naming s s' r r' := by
  have hbegun := begun_congr hsame
  have h := hs.traces.after hr fun hb => hb
  have h' := hs'.traces.after hr' fun hb => hb
  have hkeyed' : Keyed l (Begun r') := hbegun ▸ hkeyed
  -- what is told in the second run is told of what the first one has begun with, as both have begun with the same
  have hsecond : (s'.after r').Traces l enumsAsInts naming (Begun r) := hbegun ▸ h'
  have hkeys : ((s.after r).nodes.map Prod.fst).Perm ((s'.after r').nodes.map Prod.fst) := by
    rw [List.perm_ext_iff_of_nodup h.nodup h'.nodup]
    exact fun key => ⟨(hbegun ▸ h : (s.after r).Traces l enumsAsInts naming (Begun r')).mem_keys h' hr' hreads' hkeyed',
      hsecond.mem_keys h hr hreads hkeyed⟩
  refine ⟨h.nodup, hkeys, fun key node node' hn hn' => h.resembles hsecond hkeyed hn hn', ?_, ?_, ?_, ?_⟩
  · intro key id id' xs xs' hid hid' hx hx'
    exact h.fields_match hsecond hkeyed hid hid' (h.tells hx) (h'.tells hx')
  · intro q a a' hq ha ha'
    exact h.tells_matches hsecond hq (h.tells ha) (h'.tells ha')
  · intro n hn
    exact (List.mem_append.1 hn).elim (h.named.given n) (h'.named.given n)
  · intro hdistinct key node node' hn hn'
    have hdistinct' := hdistinct.of_perm hkeys
    exact (h'.named.kept hdistinct' _ hn').trans (h.named.kept hdistinct _ hn).symm

/-- Structs of one name in two files, which two runs meet in different orders, so that the numbers and the names of the
nodes differ. -/
theorem sameGraph_of_requests_swapped :
    let a : Path := ⟨["a.thrift"]⟩
    let b : Path := ⟨["b.thrift"]⟩
    let l : Library := ⟨[(a, ⟨1, [.declaration (.struct (one.struct "x"))], none⟩),
      (b, ⟨1, [.declaration (.struct (one.struct "y"))], none⟩)]⟩
    let s := one.opened l
    let r := [Request.compile .output a (.named 1 "Foo"), .compile .output b (.named 1 "Foo"), .fields 0, .fields 1]
    let r' := [Request.compile .output b (.named 1 "Foo"), .compile .output a (.named 1 "Foo"), .fields 1, .fields 0]
    s.IsNew l false declaredName ∧ s.AnswersAll r ∧ s.AnswersAll r' ∧
      (∀ q, (∀ id, q ≠ .fields id) → (q ∈ r ↔ q ∈ r')) ∧ s.ReadsAll r ∧ s.ReadsAll r' ∧ Keyed l (Begun r) ∧
      SameGraph declaredName s s r r' := by
  intro a b l s r r'
  have ha : l.resolve "Foo" a = .ok ⟨a, .struct (one.struct "x")⟩ :=
    Library.resolve_of_plain (d := ⟨1, [.declaration (.struct (one.struct "x"))], none⟩) (by decide) rfl rfl
  have hb : l.resolve "Foo" b = .ok ⟨b, .struct (one.struct "y")⟩ :=
    Library.resolve_of_plain (d := ⟨1, [.declaration (.struct (one.struct "y"))], none⟩) (by decide) rfl rfl
  have hexpand : ∀ {file field}, l.resolve "Foo" file = .ok ⟨file, .struct (one.struct field)⟩ →
      expandType l [] file (.named 1 "Foo") = .ok (.bare (.struct file (one.struct field))) := by
    intro file field h
    rw [expandType_of_resolve h, expandType_struct]
  have hids : ∀ {file file' : Path} {ids : List Nat}, file' ≠ file → (∀ id, id ∈ ids ↔ id < 2) →
      ∀ id, id ∈ ids ↔ id < if file' = file then 1 else 2 := by
    intro file file' ids hne h id
    rw [if_neg hne, h]
  obtain ⟨hr, hreads, -⟩ := one.exists_run [0, 1] (hexpand ha) (hexpand hb) (by decide) (by decide)
    (hids (by decide) fun id => by simp; omega)
  obtain ⟨hr', hreads', -⟩ := one.exists_run [1, 0] (hexpand hb) (hexpand ha) (by decide) (by decide)
    (hids (by decide) fun id => by simp; omega)
  have hsame : ∀ q, (∀ id, q ≠ .fields id) → (q ∈ r ↔ q ∈ r') := by
    intro q _
    simp only [r, r', List.mem_cons, List.not_mem_nil, or_false]
    tauto
  have hkeyed : Keyed l (Begun r) := by
    refine keyed_of_references ?_ ?_
    · simp [IsFlat, l, Idl.Document.declarations, one.struct, Idl.Declaration.inside, Idl.Struct.inside, Idl.insideAll,
        Idl.Field.inside, Idl.TypeExpr.inside]
    · rintro d file t ⟨q, hq, hb⟩
      simp only [r, List.mem_cons, List.not_mem_nil, or_false] at hq
      rcases hq with rfl | rfl | rfl | rfl <;> cases hb <;> rfl
  exact ⟨one.isNew_opened l, hr, hr', hsame, hreads, hreads', hkeyed,
    sameGraph_of_requests (one.isNew_opened l) (one.isNew_opened l) hr hr' hsame hreads hreads' hkeyed⟩

/-- If a file declares two structs of one name and both are compiled as they are, not by references, they have one key,
and the graph has the fields of whichever comes first. -/
theorem not_sameGraph_of_twice :
    let a : Path := ⟨["a.thrift"]⟩
    let l : Library :=
      ⟨[(a, ⟨1, [.declaration (.struct (one.struct "a")), .declaration (.struct (one.struct "b"))], none⟩)]⟩
    let s := one.opened l
    let r := [Request.compile .output a (.declared (.struct (one.struct "a"))),
      .compile .output a (.declared (.struct (one.struct "b"))), .fields 0]
    let r' := [Request.compile .output a (.declared (.struct (one.struct "b"))),
      .compile .output a (.declared (.struct (one.struct "a"))), .fields 0]
    s.IsNew l false declaredName ∧ s.AnswersAll r ∧ s.AnswersAll r' ∧
      (∀ q, (∀ id, q ≠ .fields id) → (q ∈ r ↔ q ∈ r')) ∧ s.ReadsAll r ∧ s.ReadsAll r' ∧
      s.Answers (asking r) (.fields 0) (.fields (.output [⟨"a", .named (.scalar .int), [], none⟩])) ∧
      s.Answers (asking r') (.fields 0) (.fields (.output [⟨"b", .named (.scalar .int), [], none⟩])) ∧
      ¬SameGraph declaredName s s r r' := by
  intro a l s r r'
  obtain ⟨hr, hreads, hid, hxs⟩ := one.exists_answer (l := l) a (show checkName "a" = .ok () by decide)
    (show checkName "b" = .ok () by decide)
  obtain ⟨hr', hreads', hid', hxs'⟩ := one.exists_answer (l := l) a (show checkName "b" = .ok () by decide)
    (show checkName "a" = .ok () by decide)
  have hsame : ∀ q, (∀ id, q ≠ .fields id) → (q ∈ r ↔ q ∈ r') := by
    intro q _
    simp only [r, r', List.mem_cons, List.not_mem_nil, or_false]
    tauto
  refine ⟨one.isNew_opened l, hr, hr', hsame, hreads, hreads', hxs, hxs', fun h => ?_⟩
  cases h.fields _ 0 0 _ _ hid hid' hxs hxs' with
  | output hfields =>
    cases hfields with
    | cons hfield _ => exact absurd hfield.name (by decide)

end ThriftGateway.Graph
