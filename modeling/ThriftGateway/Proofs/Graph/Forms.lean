import ThriftGateway.Proofs.Graph.Declared

/-!
# The two forms of a struct

A struct has a form that takes values and one that gives them, and the fields of each are compiled on their own, from
either side.  The forms stay in step (`forms_agree`): their fields have the same names in the same order, the same lists
and marks around, which are those of the declared type (`Nests`), and inside the same scalar or enumeration or the two
forms of one declaration (`Session.Sees`).
-/

namespace ThriftGateway.Graph

open Idl (Declaration Field TypeExpr)
open Source (FileTree Library Path)

/-! ### Lists that are met -/

/-- Expanding a type comes to a core and meets so many lists on the way, in the type and in the targets of the typedefs
that it leads through. -/
inductive Nests (l : Library) : Path → TypeExpr → Nat → Core → Prop
  | base {file line name x} (hx : Scalar.ofBase? name = some x) : Nests l file (.base line name) 0 (.scalar x)
  | map {file line key value} : Nests l file (.map line key value) 0 (.scalar (.wide .map))
  | set {file line element} : Nests l file (.set line element) 0 (.scalar (.wide .set))
  | struct {file s} : Nests l file (.declared (.struct s)) 0 (.struct file s)
  | enumeration {file e} : Nests l file (.declared (.enumeration e)) 0 (.enumeration file e)
  | list {file line element k core} (h : Nests l file element k core) : Nests l file (.list line element) (k + 1) core
  | typedef {file d k core} (h : Nests l file d.target k core) : Nests l file (.declared (.typedef d)) k core
  | named {file line reference r k core} (hr : l.resolve reference file = .ok r)
      (h : Nests l r.file (.declared r.declaration) k core) : Nests l file (.named line reference) k core

/-- What a field puts around its type, with so many lists inside. -/
def wrappings (f : Field) (k : Nat) : List Wrapping :=
  (if f.requiredness = some .required then [.nonNull] else []) ++ List.replicate k .list

section Nests

variable {l : Library} {file : Path} {t : TypeExpr}

/-- A type comes to one core, with one number of lists on the way. -/
private theorem Nests.unique {k k' : Nat} {core core' : Core} (h : Nests l file t k core)
    (h' : Nests l file t k' core') : k = k' ∧ core = core' := by
  induction h generalizing k' core' with
  | base hx =>
    cases h' with
    | base hx' => exact ⟨rfl, congrArg _ (Option.some.inj (hx.symm.trans hx'))⟩
  | map | set | struct | enumeration =>
    cases h'
    exact ⟨rfl, rfl⟩
  | list _ ih =>
    cases h' with
    | list h' => exact (ih h').imp_left (congrArg (· + 1))
  | typedef _ ih =>
    cases h' with
    | typedef h' => exact ih h'
  | named hr _ ih =>
    cases h' with
    | named hr' h' =>
      obtain rfl := Except.ok.inj (hr.symm.trans hr')
      exact ih h'

/-- What stands for something as it is written, or is declared, has only lists around, and as many as are met. -/
private theorem nests_of_expandType (hl : l.IsPlain) {busy : List (Path × String)}
    (ht : t.IsPlain ∨ ∃ d : Declaration, d.IsPlain ∧ t = .declared d) {e : Expansion}
    (he : expandType l busy file t = .ok e) : ∃ k, e.around = List.replicate k .list ∧ Nests l file t k e.core := by
  induction busy, file, t using expansion_induction l generalizing e with
  | base busy file line name =>
    rw [expandType] at he
    split at he
    · rename_i hx
      cases he
      exact ⟨0, rfl, .base hx⟩
    · cases he
  | list busy file line element ih =>
    rw [expandType_list, map_eq_ok] at he
    obtain ⟨a, ha, rfl⟩ := he
    rcases ht with h | ⟨d, -, ⟨⟩⟩
    cases h with
    | list h =>
      obtain ⟨k, haround, hnests⟩ := ih (.inl h) ha
      exact ⟨k + 1, congrArg (_ :: ·) haround, .list hnests⟩
  | map =>
    rw [expandType] at he
    cases he
    exact ⟨0, rfl, .map⟩
  | set =>
    rw [expandType] at he
    cases he
    exact ⟨0, rfl, .set⟩
  | field => obtain ⟨⟨⟩⟩ | ⟨d, -, ⟨⟩⟩ := ht
  | struct =>
    rw [expandType_struct] at he
    cases he
    exact ⟨0, rfl, .struct⟩
  | enumeration =>
    rw [expandType_enumeration] at he
    cases he
    exact ⟨0, rfl, .enumeration⟩
  | cycle busy file d hb =>
    rw [expandType_cycle hb] at he
    cases he
  | typedef busy file d hb ih =>
    rw [expandType_typedef hb] at he
    obtain ⟨⟨⟩⟩ | ⟨_, htarget, ⟨⟩⟩ := ht
    obtain ⟨k, haround, hnests⟩ := ih (.inl htarget) he
    exact ⟨k, haround, .typedef hnests⟩
  | unresolved busy file line reference error hr =>
    rw [expandType_of_unresolved hr] at he
    cases he
  | named busy file line reference r hr ih =>
    rw [expandType_of_resolve hr] at he
    have hplain := Declares.isPlain hl (Library.mem_declarations_of_resolve hr)
    obtain ⟨k, haround, hnests⟩ := ih (.inr ⟨_, hplain, rfl⟩) he
    exact ⟨k, haround, .named hr hnests⟩
  | void | other =>
    rw [expandType] at he
    cases he

/-- The type of a field has around it the lists that are met, and outside of them a mark if the field is required. -/
private theorem nests_of_field (hl : l.IsPlain) {f : Field} (hf : f.type.IsPlain) {e : Expansion}
    (he : expandType l [] file (.field f) = .ok e) :
    ∃ k, e.around = wrappings f k ∧ Nests l file f.type k e.core := by
  rw [expandType_field, map_eq_ok] at he
  obtain ⟨a, ha, rfl⟩ := he
  obtain ⟨k, haround, hnests⟩ := nests_of_expandType hl (.inl hf) ha
  refine ⟨k, ?_, ?_⟩
  · unfold Expansion.inField wrappings
    split
    · exact congrArg (_ :: ·) haround
    · exact haround
  · have hcore : (a.inField f).core = a.core := by
      unfold Expansion.inField
      split <;> rfl
    rwa [hcore]

end Nests

/-! ### What is inside -/

/-- What the two forms of a struct see of a core: the same scalar or enumeration, or of another struct the form on their
side. -/
inductive Session.Sees (s : Session) : Core → NamedType → NamedType → Prop
  | scalar (x : Scalar) : Sees s (.scalar x) (.scalar x) (.scalar x)
  | integer {file e} (hints : s.enumsAsInts = true) : Sees s (.enumeration file e) (.scalar .int) (.scalar .int)
  | enumeration {file e id name members} (hints : s.enumsAsInts = false)
      (hmembers : membersFrom 0 e.members = .ok members)
      (hn : s.node? id = some (.enumeration name (collect EnumMember.name members) e.description)) :
      Sees s (.enumeration file e) (.node id) (.node id)
  | struct {file struct i o name name'} (hi : s.node? i = some (.input name file struct))
      (ho : s.node? o = some (.output name' file struct)) : Sees s (.struct file struct) (.node i) (.node o)

/-- The fields of the two forms of a struct in a file for one field of it. -/
structure Session.Pairs (s : Session) (file : Path) (f : Field) (x : InputField) (y : OutputField) : Prop where
  input_name : x.name = f.name
  output_name : y.name = f.name
  types : ∃ k core t t', Nests s.library file f.type k core ∧ x.type = wrapped (wrappings f k) t ∧
    y.type = wrapped (wrappings f k) t' ∧ s.Sees core t t'

section Documented

variable {s : Session} (hs : s.IsDocumented)
include hs

private theorem sees_of_finds {core : Core} (hcore : core.Satisfies (StandsAlone s.library)) {t t' : NamedType}
    (ht : s.Finds .input core t) (ht' : s.Finds .output core t') : s.Sees core t t' := by
  cases ht with
  | scalar x =>
    cases ht'
    exact .scalar x
  | integer hints =>
    cases ht' with
    | integer => exact .integer hints
    | enumeration hints' => rw [hints] at hints'; cases hints'
  | enumeration hints hid =>
    cases ht' with
    | integer hints' => rw [hints] at hints'; cases hints'
    | enumeration _ hid' =>
      obtain rfl := Option.some.inj (hid.symm.trans hid')
      obtain ⟨node, hn, hmade⟩ := hs.2.node_of_core hcore (d := .input) rfl hid
      cases hmade with
      | enumeration _ hmembers => exact .enumeration hints hmembers hn
  | struct hid =>
    cases ht' with
    | struct hid' =>
      obtain ⟨node, hn, hmade⟩ := hs.2.node_of_core hcore (d := .input) rfl hid
      obtain ⟨node', hn', hmade'⟩ := hs.2.node_of_core hcore (d := .output) rfl hid'
      cases hmade
      cases hmade'
      exact .struct hn hn'

private theorem pairs_of_tells {file : Path} {f : Field} (hf : f.type.IsPlain) {x : InputField} {y : OutputField}
    (hx : s.TellsInput s.library file f x) (hy : s.TellsOutput s.library file f y) : s.Pairs file f x y := by
  obtain ⟨e, t, he, hxtype, ht⟩ := hx.type
  obtain ⟨e', t', he', hytype, ht'⟩ := hy.type
  obtain rfl := Except.ok.inj (he.symm.trans he')
  obtain ⟨k, haround, hnests⟩ := nests_of_field hs.1 hf he
  have hinside : (TypeExpr.field f).inside = [] := f.inside_eq.trans hf.inside_eq_nil
  have hcore := standsAlone_of_expandType (isFlat_of_isPlain hs.1) hinside he
  rw [haround] at hxtype hytype
  exact ⟨hx.name, hy.name, k, e.core, t, t', hnests, hxtype, hytype, sees_of_finds hs hcore ht ht'⟩

omit hs in
/-- The fields of a form, as they are answered, are told of the struct. -/
private theorem tellsFields_of_run {id : Nat} {node : Node} (hn : s.node? id = some node) {d : Direction} {file : Path}
    {struct : Idl.Struct} (hform : node.form? = some (d, file, struct)) {fields : Fields}
    (h : Work.run (Request.fields id).work s = (.ok (.fields fields), s)) : s.TellsFields s.library node fields := by
  have hmade : (Core.struct file struct).IsMadeAs s.enumsAsInts d ⟨file.written, struct.name, some d⟩ node := by
    cases node <;> cases hform
    · exact .input
    · exact .output
  have hmeets : Meets s.library (fun _ _ _ => True) d (.struct file struct) :=
    ⟨file, .declared (.struct struct), _, .start trivial, expandType_struct, rfl⟩
  unfold Request.work at h
  rw [Work.run_bind_of_ok (Work.run_get s), hn] at h
  obtain ⟨fields', s', hfields, ha⟩ := Work.run_bind_eq_ok.1 (Work.run_adapt_eq_ok.1 h)
  cases ha
  exact (nodeFields_yields findsNodes_library hmeets hmade s s fields ⟨rfl, rfl⟩ hfields).2.2

omit hs in
/-- A type, as it is answered, is told of what it stands for. -/
private theorem tellsType_of_run {d : Direction} {file : Path} {t : TypeExpr} {g : GraphType}
    (h : Work.run (Request.compile d file t).work s = (.ok (.type g), s)) : s.TellsType s.library d file t g := by
  unfold Request.work at h
  obtain ⟨g', s', hg, ha⟩ := Work.run_bind_eq_ok.1 (Work.run_adapt_eq_ok.1 h)
  cases ha
  have hreaches : Reaches s.library (fun _ _ _ => True) d file t := .start trivial
  exact (compileType_yields findsNodes_library hreaches s s g ⟨rfl, rfl⟩ hg).2.2

/-- A type that stands for a struct that is the only one of its name in its file has the form of the struct inside. -/
private theorem form_of_tellsType {d : Direction} {file file' : Path} {t : TypeExpr} {g : GraphType} {e : Expansion}
    {struct : Idl.Struct} (hg : s.TellsType s.library d file t g) (he : expandType s.library [] file t = .ok e)
    (hcore : e.core = .struct file' struct) (halone : StandsAlone s.library file' (.struct struct)) :
    ∃ id node, g.innermost = .node id ∧ s.node? id = some node ∧ node.form? = some (d, file', struct) := by
  obtain ⟨e', t, he', rfl, ht⟩ := hg
  obtain rfl := Except.ok.inj (he.symm.trans he')
  rw [hcore] at ht
  cases ht with
  | @struct _ _ id hid =>
    have hcore : (Core.struct file' struct).Satisfies (StandsAlone s.library) := halone
    obtain ⟨node, hn, hmade⟩ := hs.2.node_of_core hcore rfl hid
    refine ⟨id, node, innermost_wrapped _ _, hn, ?_⟩
    cases hmade <;> rfl

end Documented

/-! ### The fields of both forms -/

/-- Fields that are told of one after another, with one name brought together, are told of those that are last of their
names. -/
private theorem Gathers.last {α : Type} {R : Field → α → Prop} {nameOf : α → String} {fs : List Field} {xs : List α}
    (h : Gathers R nameOf fs xs) (hname : ∀ f x, R f x → nameOf x = f.name) :
    List.Forall₂ (fun f x => (fs.filter fun f' => f'.name = f.name).getLast? = some f ∧ R f x)
      (collect Field.name fs) xs := by
  obtain ⟨all, hall, rfl⟩ := h
  exact (List.forall₂_and_left _ _).2 ⟨fun f hf => getLast?_of_mem_collect hf, forall₂_collect hname hall⟩

private theorem map_eq_of_forall₂ {α β : Type} {f : α → String} {g : β → String} {xs : List α} {ys : List β}
    (h : List.Forall₂ (fun x y => f x = g y) xs ys) : xs.map f = ys.map g := by
  rw [← List.forall₂_eq_eq_eq, List.forall₂_map_left_iff, List.forall₂_map_right_iff]
  exact h

/-- The fields of both forms of a struct that has some. -/
private theorem pairs_of_gathers {s : Session} (hs : s.IsDocumented) {file : Path} {fs : List Field}
    (hfs : ∀ f ∈ fs, f.type.IsPlain) {xs : List InputField} {ys : List OutputField}
    (hxs : Gathers (s.TellsInput s.library file) InputField.name fs xs)
    (hys : Gathers (s.TellsOutput s.library file) OutputField.name fs ys) :
    xs.map InputField.name = (fs.map Field.name).eraseDups ∧
      List.Forall₂ (fun x y => ∃ f, (fs.filter (·.name = x.name)).getLast? = some f ∧ s.Pairs file f x y) xs ys := by
  have hx := hxs.last fun f x h => h.name
  have hy := hys.last fun f y h => h.name
  refine ⟨?_, forall₂_of_forall₂ (fun f x y hfx hfy => ⟨f, ?_, ?_⟩) hx hy⟩
  · rw [← collect_keys]
    exact (map_eq_of_forall₂ (hx.imp fun f x h => h.2.name.symm)).symm
  · rw [hfx.2.name]
    exact hfx.1
  · exact pairs_of_tells hs (hfs f (List.mem_of_mem_filter (List.mem_of_getLast? hfx.1))) hfx.2 hfy.2

namespace Session

/-- In every run that asks only about what stands in the documents, with whatever names: if the fields of both forms of
a struct are answered, they have the same names in the same order, the declared ones as they first occur, or both are
the placeholder if none is declared.  The two fields of one name are for the last field of that name in the struct:
around the types of both are as many lists as are met in its declared type, and outside of them a mark that forbids
`null` if it is required; inside is the same scalar or enumeration, or the two forms of one declaration.  And what is
compiled for a struct that is the only one of its name in its file has the form of the struct for that direction
inside. -/
theorem forms_agree (enumsAsInts : Bool) (naming : TypeNaming) {run : List Step}
    (hrun : (fresh enumsAsInts naming).Asks run) :
    let start := fresh enumsAsInts naming
    let s := start.steps run
    (∀ file struct i o name name' xs ys,
      s.node? i = some (.input name file struct) → s.node? o = some (.output name' file struct) →
      start.Answers run (.fields i) (.fields (.input xs)) → start.Answers run (.fields o) (.fields (.output ys)) →
      xs.map InputField.name = ys.map OutputField.name ∧
      (struct.fields = [] →
        xs = [⟨placeholderName, .named (.scalar .boolean), none, some placeholderDescription⟩] ∧
        ys = [⟨placeholderName, .named (.scalar .boolean), [], some placeholderDescription⟩]) ∧
      (struct.fields ≠ [] → xs.map InputField.name = (struct.fields.map Field.name).eraseDups ∧
        List.Forall₂ (fun x y => ∃ f, (struct.fields.filter (·.name = x.name)).getLast? = some f ∧ s.Pairs file f x y)
          xs ys)) ∧
    ∀ d file t g e file' struct, start.Answers run (.compile d file t) (.type g) →
      expandType s.library [] file t = .ok e → e.core = .struct file' struct →
      StandsAlone s.library file' (.struct struct) →
      ∃ id node, g.innermost = .node id ∧ s.node? id = some node ∧ node.form? = some (d, file', struct) := by
  intro start s
  have hs : s.IsDocumented := steps_documented (fresh_documented enumsAsInts naming) hrun
  refine ⟨fun file struct i o name name' xs ys hi ho hxs hys => ?_, ?_⟩
  · have hinput := tellsFields_of_run hi rfl hxs.run
    have houtput := tellsFields_of_run ho rfl hys.run
    have hplain : ∀ f ∈ struct.fields, f.type.IsPlain := (hs.2.declares_of_form? hi rfl).isPlain hs.1
    cases hinput with
    | none hnil =>
      cases houtput with
      | none => exact ⟨rfl, fun _ => ⟨rfl, rfl⟩, fun hne => absurd hnil hne⟩
      | fields hne => exact absurd hnil hne
    | fields hne hx =>
      cases houtput with
      | none hnil => exact absurd hnil hne
      | fields _ hy =>
        obtain ⟨hnames, hpairs⟩ := pairs_of_gathers hs hplain hx hy
        refine ⟨map_eq_of_forall₂ (hpairs.imp ?_), fun hnil => absurd hnil hne, fun _ => ⟨hnames, hpairs⟩⟩
        rintro x y ⟨f, -, hf⟩
        exact hf.input_name.trans hf.output_name.symm
  · intro d file t g e file' struct hg he hcore halone
    exact form_of_tellsType hs (tellsType_of_run hg.run) he hcore halone

/-- A struct that lists itself, with one field declared twice: first of a typedef, then required and of lists of it. -/
def nested : FileTree where
  working := ⟨["idl"]⟩
  files := [(⟨["idl", "a.thrift"]⟩, Text.encode "typedef list<S> L struct S { 1: L a 2: required list<L> a }")]

/-- The struct as it is declared. -/
def nestedStruct : Idl.Struct :=
  ⟨.struct, 1, "S", [⟨1, "a", some 1, none, .named 1 "L", none, none⟩,
    ⟨1, "a", some 2, some .required, .list 1 (.named 1 "L"), none, none⟩], none⟩

/-- Whether a document declares the struct and the typedef, and includes nothing. -/
private def declaresNested (d : Idl.Document) : Bool :=
  d.includes.isEmpty &&
    match d.declarationsNamed "S", d.declarationsNamed "L" with
    | [.struct ⟨.struct, 1, "S", [⟨1, "a", some 1, none, .named 1 "L", none, none⟩,
        ⟨1, "a", some 2, some .required, .list 1 (.named 1 "L"), none, none⟩], none⟩],
      [.typedef ⟨1, "L", .list 1 (.named 1 "S"), none⟩] => true
    | _, _ => false

private theorem exists_nested : ∃ d, nested.document ⟨["idl", "a.thrift"]⟩ = .ok d ∧ d.includes = [] ∧
    d.declarationsNamed "S" = [.struct nestedStruct] ∧
    d.declarationsNamed "L" = [.typedef ⟨1, "L", .list 1 (.named 1 "S"), none⟩] := by
  obtain ⟨d, hd, hview⟩ := Source.exists_document_of_any (t := nested) (p := ⟨["idl", "a.thrift"]⟩) declaresNested
    (by decide +kernel)
  rw [declaresNested, Bool.and_eq_true, List.isEmpty_iff] at hview
  obtain ⟨hi, hview⟩ := hview
  split at hview
  · rename_i hS hL
    exact ⟨d, hd, hi, hS, hL⟩
  · cases hview

section Nested

variable {s : Session} {a : Path} {id : Nat} {name : String}

/-- The library of the session says what the two fields are. -/
private structure SaysNested (a : Path) (s : Session) : Prop where
  list : expandType s.library [] a (.field ⟨1, "a", some 1, none, .named 1 "L", none, none⟩) =
    .ok ⟨[.list], .struct a nestedStruct⟩
  lists : expandType s.library [] a (.field ⟨1, "a", some 2, some .required, .list 1 (.named 1 "L"), none, none⟩) =
    .ok ⟨[.nonNull, .list, .list], .struct a nestedStruct⟩

private theorem run_input_nested (hs : SaysNested a s) (hn : s.node? id = some (.input name a nestedStruct))
    (hid : s.find? ⟨a.written, "S", some .input⟩ = some id) :
    Work.run (Request.fields id).work s =
      (.ok (.fields (.input [⟨"a", .nonNull (.list (.list (.named (.node id)))), none, none⟩])), s) := by
  have hlist : Work.run (compileInputField a ⟨1, "a", some 1, none, .named 1 "L", none, none⟩) s =
      (.ok ⟨"a", .list (.named (.node id)), none, none⟩, s) :=
    (Work.run_bind_of_ok (run_compileType_of_find? hs.list hid)).trans rfl
  have hlists : Work.run (compileInputFields a
      [⟨1, "a", some 2, some .required, .list 1 (.named 1 "L"), none, none⟩]) s =
      (.ok [⟨"a", .nonNull (.list (.list (.named (.node id)))), none, none⟩], s) :=
    (Work.run_bind_of_ok ((Work.run_bind_of_ok (run_compileType_of_find? hs.lists hid)).trans rfl)).trans rfl
  have hfields : Work.run (compileInputFields a nestedStruct.fields) s =
      (.ok [⟨"a", .list (.named (.node id)), none, none⟩,
        ⟨"a", .nonNull (.list (.list (.named (.node id)))), none, none⟩], s) :=
    (Work.run_bind_of_ok hlist).trans ((Work.run_bind_of_ok hlists).trans rfl)
  have hall : Work.run (structInputFields a nestedStruct) s =
      (.ok [⟨"a", .nonNull (.list (.list (.named (.node id)))), none, none⟩], s) :=
    (Work.run_bind_of_ok hfields).trans rfl
  have hnode : Work.run (nodeFields (.input name a nestedStruct)) s =
      (.ok (.input [⟨"a", .nonNull (.list (.list (.named (.node id)))), none, none⟩]), s) := by
    have hnames : checkAll checkName ["a"] = .ok () := by decide +kernel
    refine (Work.run_bind_of_ok (Work.run_adapt_eq_ok.2 hall)).trans ?_
    exact (Work.run_bind_of_ok (Work.run_ofExcept_eq_ok.2 ⟨hnames, rfl⟩)).trans rfl
  unfold Request.work
  rw [Work.run_bind_of_ok (Work.run_get s), hn]
  exact Work.run_adapt_eq_ok.2 (Work.run_bind_of_ok hnode)

private theorem run_output_nested (hs : SaysNested a s) (hn : s.node? id = some (.output name a nestedStruct))
    (hid : s.find? ⟨a.written, "S", some .output⟩ = some id) :
    Work.run (Request.fields id).work s =
      (.ok (.fields (.output [⟨"a", .nonNull (.list (.list (.named (.node id)))), [], none⟩])), s) := by
  have hlist : Work.run (compileOutputField a ⟨1, "a", some 1, none, .named 1 "L", none, none⟩) s =
      (.ok ⟨"a", .list (.named (.node id)), [], none⟩, s) :=
    (Work.run_bind_of_ok (run_compileType_of_find? hs.list hid)).trans rfl
  have hlists : Work.run (compileOutputFields a
      [⟨1, "a", some 2, some .required, .list 1 (.named 1 "L"), none, none⟩]) s =
      (.ok [⟨"a", .nonNull (.list (.list (.named (.node id)))), [], none⟩], s) :=
    (Work.run_bind_of_ok ((Work.run_bind_of_ok (run_compileType_of_find? hs.lists hid)).trans rfl)).trans rfl
  have hfields : Work.run (compileOutputFields a nestedStruct.fields) s =
      (.ok [⟨"a", .list (.named (.node id)), [], none⟩,
        ⟨"a", .nonNull (.list (.list (.named (.node id)))), [], none⟩], s) :=
    (Work.run_bind_of_ok hlist).trans ((Work.run_bind_of_ok hlists).trans rfl)
  have hall : Work.run (structOutputFields a nestedStruct) s =
      (.ok [⟨"a", .nonNull (.list (.list (.named (.node id)))), [], none⟩], s) :=
    (Work.run_bind_of_ok hfields).trans rfl
  have hnode : Work.run (nodeFields (.output name a nestedStruct)) s =
      (.ok (.output [⟨"a", .nonNull (.list (.list (.named (.node id)))), [], none⟩]), s) := by
    have hnames : checkAll checkName ["a"] = .ok () := by decide +kernel
    refine (Work.run_bind_of_ok (Work.run_adapt_eq_ok.2 hall)).trans ?_
    exact (Work.run_bind_of_ok (Work.run_ofExcept_eq_ok.2 ⟨hnames, rfl⟩)).trans rfl
  unfold Request.work
  rw [Work.run_bind_of_ok (Work.run_get s), hn]
  exact Work.run_adapt_eq_ok.2 (Work.run_bind_of_ok hnode)

/-- Loading the file and asking for both forms makes a node for each, and the library says what the fields are. -/
private theorem steps_nested (ha : a = ⟨["idl", "a.thrift"]⟩) : ∃ (name name' : String) (s' : Session),
    (fresh false declaredName).steps [.load nested [a], .ask (.compile .input a (.named 1 "S")),
      .ask (.compile .output a (.named 1 "S"))] = s' ∧ SaysNested a s' ∧
    s'.nodes = [(⟨a.written, "S", some .input⟩, .input name a nestedStruct),
      (⟨a.written, "S", some .output⟩, .output name' a nestedStruct)] := by
  obtain ⟨d, hd, hi, hS, hL⟩ := exists_nested
  rw [← ha] at hd
  obtain ⟨l, hl⟩ : ∃ l : Library, l = ⟨[(a, d)]⟩ := ⟨_, rfl⟩
  have hdocument : l.document? a = some d := by simp [hl, Library.document?]
  have hresolveS : l.resolve "S" a = .ok ⟨a, .struct nestedStruct⟩ := Library.resolve_of_plain (by decide) hdocument hS
  have hresolveL : l.resolve "L" a = .ok ⟨a, .typedef ⟨1, "L", .list 1 (.named 1 "S"), none⟩⟩ :=
    Library.resolve_of_plain (by decide) hdocument hL
  have hexpandS : ∀ busy, expandType l busy a (.named 1 "S") = .ok (.bare (.struct a nestedStruct)) := fun busy =>
    (expandType_of_resolve hresolveS).trans expandType_struct
  have hexpandL : expandType l [] a (.named 1 "L") = .ok ⟨[.list], .struct a nestedStruct⟩ := by
    rw [expandType_of_resolve hresolveL, expandType_typedef rfl, expandType_list, hexpandS]
    rfl
  obtain ⟨s₁, hs₁⟩ : ∃ s₁, s₁ = (fresh false declaredName).step (.load nested [a]) := ⟨_, rfl⟩
  have hlibrary₁ : s₁.library = l := by
    rw [hs₁, hl]
    show (Source.loadPending nested .empty [a]).library = _
    rw [Source.loadPending_alone hd hi]
  have hexpand₁ : expandType s₁.library [] a (.named 1 "S") = .ok (.bare (.struct a nestedStruct)) := by
    rw [hlibrary₁, hexpandS]
  obtain ⟨s₂, s₃, node, node', h₂, h₃, hform, hform', hnodes, hlibrary⟩ := exists_forms (s := s₁) rfl hexpand₁
    (by rw [hs₁]; rfl) (by rw [hs₁]; rfl) (by rw [hs₁]; rfl) (by rw [hs₁]; rfl)
  obtain ⟨name, rfl⟩ : ∃ name, node = .input name a nestedStruct := by cases node <;> cases hform; exact ⟨_, rfl⟩
  obtain ⟨name', rfl⟩ : ∃ name, node' = .output name a nestedStruct := by cases node' <;> cases hform'; exact ⟨_, rfl⟩
  have hstep₂ : s₁.step (.ask (.compile .input a (.named 1 "S"))) = s₂ := congrArg Prod.snd h₂
  have hstep₃ : s₂.step (.ask (.compile .output a (.named 1 "S"))) = s₃ := congrArg Prod.snd h₃
  refine ⟨name, name', s₃, ?_, ?_, hnodes⟩
  · rw [steps_cons, ← hs₁, steps_cons, hstep₂, steps_cons, hstep₃, steps_nil]
  · constructor <;> rw [hlibrary, hlibrary₁, expandType_field]
    · rw [hexpandL]
      rfl
    · rw [expandType_list, hexpandL]
      rfl

end Nested

/-- Asking for two named types and for fields is asking for what stands in the documents. -/
private theorem asks_nested {a : Path} : (fresh false declaredName).Asks [.load nested [a],
    .ask (.compile .input a (.named 1 "S")), .ask (.compile .output a (.named 1 "S")), .ask (.fields 0),
    .ask (.fields 1)] := by
  intro before q after h
  have hmem : Step.ask q ∈ before ++ .ask q :: after := by simp
  simp only [← h, List.mem_cons, List.not_mem_nil, or_false, reduceCtorEq, false_or, Step.ask.injEq] at hmem
  rcases hmem with rfl | rfl | rfl | rfl
  · exact .plain .named
  · exact .plain .named
  · trivial
  · trivial

/-- The two forms of the struct have one field, which is required, with two lists, of the struct on either side. -/
theorem forms_agree_nested :
    let a : Path := ⟨["idl", "a.thrift"]⟩
    let start := fresh false declaredName
    let run := [Step.load nested [a], .ask (.compile .input a (.named 1 "S")), .ask (.compile .output a (.named 1 "S")),
      .ask (.fields 0), .ask (.fields 1)]
    let s := start.steps run
    start.Asks run ∧ ∃ xs ys,
      start.Answers run (.fields 0) (.fields (.input xs)) ∧ start.Answers run (.fields 1) (.fields (.output ys)) ∧
      xs.map InputField.type = [.nonNull (.list (.list (.named (.node 0))))] ∧
      ys.map OutputField.type = [.nonNull (.list (.list (.named (.node 1))))] ∧
      xs.map InputField.name = ys.map OutputField.name ∧
      List.Forall₂ (fun x y => ∃ f, (nestedStruct.fields.filter (·.name = x.name)).getLast? = some f ∧ s.Pairs a f x y)
        xs ys := by
  intro a start run s
  obtain ⟨name, name', s₃, hsteps, hsays, hnodes⟩ := steps_nested (rfl : a = _)
  have hi : s₃.node? 0 = some (.input name a nestedStruct) := by rw [node?, hnodes]; rfl
  have ho : s₃.node? 1 = some (.output name' a nestedStruct) := by rw [node?, hnodes]; rfl
  have hx := run_input_nested hsays hi (by rw [find?, hnodes]; rfl)
  have hy := run_output_nested hsays ho (by rw [find?, hnodes]; rfl)
  -- telling the fields changes nothing
  have hstep₄ : s₃.step (.ask (.fields 0)) = s₃ := congrArg Prod.snd hx
  have hstep₅ : s₃.step (.ask (.fields 1)) = s₃ := congrArg Prod.snd hy
  have hsteps₄ : start.steps [.load nested [a], .ask (.compile .input a (.named 1 "S")),
      .ask (.compile .output a (.named 1 "S")), .ask (.fields 0)] = s₃ :=
    (congrArg (·.step (.ask (.fields 0))) hsteps).trans hstep₄
  have hrun : s = s₃ := (congrArg (·.step (.ask (.fields 1))) hsteps₄).trans hstep₅
  have hxs : start.Answers run (.fields 0)
      (.fields (.input [⟨"a", .nonNull (.list (.list (.named (.node 0)))), none, none⟩])) :=
    ⟨_, _, rfl, (congrArg (fun s => (Work.run (Request.fields 0).work s).1) hsteps).trans (congrArg Prod.fst hx)⟩
  have hys : start.Answers run (.fields 1)
      (.fields (.output [⟨"a", .nonNull (.list (.list (.named (.node 1)))), [], none⟩])) :=
    ⟨_, _, rfl, (congrArg (fun s => (Work.run (Request.fields 1).work s).1) hsteps₄).trans (congrArg Prod.fst hy)⟩
  rw [← hrun] at hi ho
  obtain ⟨hnames, -, hpairs⟩ :=
    (forms_agree false declaredName asks_nested).1 a nestedStruct 0 1 name name' _ _ hi ho hxs hys
  exact ⟨asks_nested, _, _, hxs, hys, rfl, rfl, hnames, (hpairs (by decide)).2⟩

end Session

end ThriftGateway.Graph
