import ThriftGateway.Proofs.Execution.Keys
import ThriftGateway.Proofs.Schema.Assembling
import ThriftGateway.Proofs.Schema.Nullable
import ThriftGateway.Proofs.Value.Entries

/-!
# Root fields do not disturb each other

In a generated schema every root field may be `null`, so an error ends at the root field in which it comes up: an answer
has data, with a value for each key.  This is the value that the root field has when it is asked for alone
(`answer_isolated`), unless something on the way is told of the whole request: a text that is filled as a template, or a
function of a client's own.  Such a text shows what else is asked for (`answer_entangled`).  Only `__schema` forbids
`null`, which is a field of every root: where it cannot be told what is selected from a description, there is no data.
-/

namespace ThriftGateway.Execution

open Request (Document Operation SelectedField)
open Schema (RootField Schema TypeSystem)
open Service (CallError Task)

/-! ### Answers -/

/-- A request passes all checks and the reading of its variables, and the operation to be run is a query. -/
structure Passes (s : TypeSystem) (d : Document) (name : Option String) (given : List (String × Value))
    (op : Operation) : Prop where
  faultless : requestFaults s d = []
  chosen : chosenOperation d name = .ok op
  query : op.kind = .query
  read : variableReport maxVariableFaults (readVariables s given op.parameters).2 = .ok []

section

variable {s : Schema} {env : Environment} {d : Document} {name : Option String} {op : Operation}
  {given : List (String × Value)} {context : Value} {fields : List SelectedField}

/-- A request that passes is run. -/
private theorem answer_of_passes (h : Passes s.known d name given op) (env : Environment) (context : Value) :
    answer s env d name given context =
      match (settingOf s.known d op given context).within Schema.rootName op.selections with
      | .ok fields => runFields s env (settingOf s.known d op given context) fields
      | .error message => .refused (.undecided message) := by
  unfold answer
  rw [h.faultless, h.chosen]
  dsimp only
  rw [h.read]
  dsimp only
  rw [runOperation, if_pos h.query]
  rfl

private theorem mem_operations_of_chosen (h : chosenOperation d name = .ok op) : op ∈ d.operations := by
  unfold chosenOperation at h
  split at h
  · split at h
    · rename_i hop
      cases h
      exact List.mem_of_find?_eq_some hop
    · cases h
  · rename_i op' hops
    cases h
    rw [hops]
    exact List.mem_cons_self
  · cases h
  · cases h

/-- What a request that passes selects from the root. -/
private theorem Passes.selectsFromRoot (h : Passes s.known d name given op)
    (hfields : (settingOf s.known d op given context).within Schema.rootName op.selections = .ok fields) :
    SelectsFromRoot s.known d op fields := by
  obtain ⟨hoffers, hsub⟩ := collects_collectFields hfields
  exact ⟨isFaultless_of_requestFaults h.faultless, mem_operations_of_chosen h.chosen, h.query,
    fun x hx => (hoffers x hx).1, hsub⟩

/-! ### Fields asked for alone -/

/-- What the part of a request uses has the same values and stands for the same as in the whole. -/
private theorem alike_only (h : Passes s.known d name given op) (hroot : SelectsFromRoot s.known d op fields)
    (context : Value) :
    let whole := settingOf s.known d op given context
    let part := settingOf s.known (only s.known d op fields) (cut s.known d op fields) given context
    whole.Alike part ∧ whole.Shares part (cut s.known d op fields).selections := by
  intro whole part
  have hd := hroot.faultless
  have hvalues : AgreeOn ((usesOf s.known d.fragments (cut s.known d op fields)).map Use.name) whole.bindings
      part.bindings := (readVariables_only (variableReport_eq_nil h.read)).2
  have hparent : operationParent? s.known (cut s.known d op fields) = some (rootParent s.known) := if_pos h.query
  refine ⟨⟨rfl, rfl, rfl, fun f hf => ⟨closed_only hd hf, hvalues.mono fun n hn => ?_⟩⟩,
    ⟨spreadsAlike_cut, hvalues.mono fun n hn => ?_⟩⟩
  · rw [← map_name_selectionsUses s.known (parentNamed? s.known f.condition.text)] at hn
    obtain ⟨u, hu, rfl⟩ := List.mem_map.1 hn
    have hinside : f ∈ fragmentsOf d.fragments (cut s.known d op fields) := (mem_fragments_only hd).1 hf
    exact List.mem_map.2 ⟨u, List.mem_append_right _ (List.mem_flatMap.2 ⟨f, hinside, List.mem_append_right _ hu⟩), rfl⟩
  · rw [← map_name_selectionsUses s.known (some (rootParent s.known))] at hn
    obtain ⟨u, hu, rfl⟩ := List.mem_map.1 hn
    refine List.mem_map.2 ⟨u, List.mem_append_left _ (List.mem_append_right _ ?_), rfl⟩
    rwa [hparent]

/-- The part of a request for the fields of one key passes too, and asks for these fields. -/
private theorem passes_only (h : Passes s.known d name given op)
    (hfields : (settingOf s.known d op given context).within Schema.rootName op.selections = .ok fields)
    (key : String) :
    let part := (groupOf fields key).2
    Passes s.known (only s.known d op part) name given (cut s.known d op part) ∧
      (settingOf s.known (only s.known d op part) (cut s.known d op part) given context).within Schema.rootName
        (cut s.known d op part).selections = .ok part := by
  intro part
  have hroot : SelectsFromRoot s.known d op part := (h.selectsFromRoot hfields).sublist_of List.filter_sublist
  refine ⟨⟨hroot.requestFaults_only, chosenOperation_only h.chosen, h.query, ?_⟩, ?_⟩
  · rw [(readVariables_only (variableReport_eq_nil h.read)).1]
    rfl
  · refine collectFields_toSelection fun x hx => ?_
    have hchosen : isSelected s.known (settingOf s.known d op given context).bindings x.directives = .ok true :=
      ((collects_collectFields hfields).1 x (List.mem_filter.1 hx).1).2
    have hshares := (alike_only h hroot context).2.of_subset
      (show [x.toSelection] ⊆ _ from List.cons_subset.2 ⟨List.mem_map.2 ⟨x, hx, rfl⟩, List.nil_subset _⟩)
    have hdirectives : AgreeOn (directivesVariables x.directives) _ _ := hshares.agrees.mono fun n hn => by
      rw [selectionsVariables_eq, List.flatMap_singleton]
      exact List.mem_append_left _ (List.mem_append_right _ hn)
    have hsame := toOption_isSelected s.known hdirectives
    rw [hchosen] at hsame
    show isSelected s.known _ x.directives = .ok true
    cases hr : isSelected s.known
        (settingOf s.known (only s.known d op part) (cut s.known d op part) given context).bindings x.directives with
    | error message =>
      rw [hr] at hsame
      cases hsame
    | ok r =>
      rw [hr] at hsame
      exact congrArg Except.ok (Option.some.inj hsame)

end

/-! ### A value that shows what else is asked for -/

/-- A function that gives a struct with a field `format`, and one that gives a text, with what is behind them. -/
def entangled : Source.FileTree where
  working := ⟨["idl"]⟩
  files := [(file, Text.encode "struct F \x7b 1: string format \x7d service S \x7b F f() string g() \x7d")]
where
  file : Source.Path := ⟨["idl", "s.thrift"]⟩
  config : Config := { services := [(.text "svc", ⟨.text "s.thrift", .text "", [], []⟩)], strict := .bool false }
  /-- A field of texts. -/
  text : Idl.Field := ⟨1, "format", some 1, none, .base 1 "string", none, none⟩
  result : Idl.Struct := ⟨.struct, 1, "F", [text], none⟩
  function (name : String) (t : Idl.TypeExpr) : Idl.Function := ⟨1, name, t, [], [], false, none⟩
  f : Idl.Function := function "f" (.named 1 "F")
  g : Idl.Function := function "g" (.base 1 "string")
  service : Idl.Service := ⟨1, "S", none, [f, g], none⟩
  parsed : Idl.Document := ⟨1, [.declaration (.struct result), .service service], some file⟩
  offer : Schema.Offer := ⟨.text "svc", file, service, false, []⟩

namespace entangled

/-- The field of the struct. -/
def format : Graph.OutputField := ⟨"format", .named (.scalar .string), [], none⟩

/-- The root field of the function that gives the struct. -/
def rootF : RootField := ⟨⟨"S_f", .named (.node 0), [], none⟩, ⟨.text "svc", f, {}⟩⟩

/-- The root field of the function that gives a text. -/
def rootG : RootField := ⟨⟨"S_g", .named (.scalar .string), [], none⟩, ⟨.text "svc", g, {}⟩⟩

/-- The schema that offers the functions. -/
def schema : Schema where
  root := [rootF, rootG]
  types := [(.node 0, .object "F" none [format]), (.scalar .string, .scalar .string)]

/-- The session once the file has been read, with some nodes. -/
def session (nodes : List (Graph.NodeKey × Graph.Node)) : Graph.Session :=
  { Graph.Session.fresh false Graph.declaredName with
    library := ⟨[(file, parsed)]⟩, log := [.parsed file], nodes
    names := ⟨(nodes.map (·.2.name)).reverse ++ Graph.reservedNames, []⟩ }

/-- The node of the struct. -/
def given : Graph.NodeKey × Graph.Node := (⟨file.written, "F", some .output⟩, .output "F" file result)

private theorem run_compile {t : Idl.TypeExpr} {e : Graph.Expansion}
    (h : Graph.expandType ⟨[(file, parsed)]⟩ [] file t = .ok e) (d : Option Graph.Direction)
    (nodes : List (Graph.NodeKey × Graph.Node)) :
    Graph.Work.run (Graph.compileType d file t) (session nodes) =
      Graph.Work.run (Graph.compileExpansion d (.ok e)) (session nodes) := by
  unfold Graph.compileType
  rw [Graph.Work.run_bind_of_ok (Graph.Work.run_get _)]
  show Graph.Work.run (Graph.compileExpansion d (Graph.expandType ⟨[(file, parsed)]⟩ [] file t)) _ = _
  rw [h]

private theorem expand_result :
    Graph.expandType ⟨[(file, parsed)]⟩ [] file (.named 1 "F") = .ok (.bare (.struct file result)) := by cbv

private theorem expand_text :
    Graph.expandType ⟨[(file, parsed)]⟩ [] file (.base 1 "string") = .ok (.bare (.scalar .string)) ∧
      Graph.expandType ⟨[(file, parsed)]⟩ [] file (.field text) = .ok (.bare (.scalar .string)) :=
  ⟨by cbv, by cbv⟩

/-- The names of the schema are free, legal and told apart. -/
private theorem names_fine :
    ((session []).names.isUsed ((session []).naming ⟨file.written, result.name, false, false⟩) = false ∧
      Graph.isReservedType ((session []).naming ⟨file.written, result.name, false, false⟩) = false ∧
      Graph.checkName ((session []).naming ⟨file.written, result.name, false, false⟩) = .ok ()) ∧
    Graph.checkAll Graph.checkName (schema.root.map (·.field.name)) = .ok () ∧
    Schema.firstRepeated [] (schema.definitions.map Schema.Definition.name ++ Graph.describingNames) = none ∧
    ∀ name ∈ ["Query", "S_f", "S_g", "F", "format", "String"], Schema.nameFault name = [] := by
  decide +kernel

private theorem run_result : Graph.Work.run (Graph.compileType (some .output) file (.named 1 "F")) (session []) =
    (.ok (.named (.node 0)), session [given]) := by
  have hname : Graph.Work.run (Graph.makeStruct (some .output) file result) (session []) =
      (.ok given.2, { session [] with names := ⟨"F" :: Graph.reservedNames, []⟩ }) := by
    show Graph.Work.run (Graph.giveName _ >>= _) (session []) = _
    obtain ⟨⟨hused, hreserved, hlegal⟩, -⟩ := names_fine
    rw [Graph.Work.run_bind_of_ok (Graph.run_giveName_of_free hused hreserved hlegal)]
    rfl
  have hnode : Graph.Work.run (Graph.nodeFor ⟨file.written, result.name, some .output⟩
      (Graph.makeStruct (some .output) file result)) (session []) = (.ok 0, session [given]) :=
    Graph.run_nodeFor_of_make rfl rfl hname
  rw [run_compile expand_result]
  show Graph.Work.run ((Graph.nodeFor _ _ >>= _) >>= _) (session []) = _
  rw [Graph.Work.run_bind, Graph.Work.run_bind_of_ok hnode]
  rfl

/-- The functions compile to root fields, one after the other. -/
private theorem run_functions :
    Graph.Work.run (Graph.compileFunction file f) (session []) =
        (.ok { rootF.field with name := "f" }, session [given]) ∧
      Graph.Work.run (Graph.compileFunction file g) (session [given]) =
        (.ok { rootG.field with name := "g" }, session [given]) := by
  constructor
  · unfold Graph.compileFunction
    rw [show f.result = .named 1 "F" from rfl, Graph.Work.run_bind_of_ok run_result]
    rfl
  · unfold Graph.compileFunction
    have htext : Graph.Work.run (Graph.compileType (some .output) file (.base 1 "string")) (session [given]) =
        (.ok (.named (.scalar .string)), session [given]) := by
      rw [run_compile expand_text.1]
      rfl
    rw [show g.result = .base 1 "string" from rfl, Graph.Work.run_bind_of_ok htext]
    rfl

private theorem run_given : Graph.Work.run (Graph.nodeFields given.2) (session [given]) =
    (.ok (.output [format]), session [given]) := by
  have hfield : Graph.Work.run (Graph.compileOutputField file text) (session [given]) =
      (.ok format, session [given]) := by
    unfold Graph.compileOutputField Graph.compileField
    rw [Graph.Work.run_bind_of_ok (run_compile expand_text.2 _ _)]
    rfl
  have hstruct : Graph.Work.run (Graph.structOutputFields file result) (session [given]) =
      (.ok [format], session [given]) := by
    show Graph.Work.run ((Graph.compileOutputField file text >>= _) >>= _) _ = _
    rw [Graph.Work.run_bind, Graph.Work.run_bind_of_ok hfield]
    rfl
  show Graph.Work.run (ExceptT.adapt _ (Graph.structOutputFields file result) >>= _) _ = _
  rw [Graph.Work.run_bind, Graph.Work.run_adapt, hstruct]
  rfl

private theorem isValid_schema : schema.IsValid where
  distinct := names_fine.2.2.1
  members := rfl
  faultless := by
    have hnames := names_fine.2.2.2
    simp only [List.forall_mem_cons] at hnames
    obtain ⟨hquery, hf, hg, hF, hformat, hstring, -⟩ := hnames
    simp [Schema.Schema.faults, Schema.Schema.definitions, Schema.TypeSystem.definitions,
      Schema.TypeSystem.rootDefinition, Schema.Schema.system, schema, Schema.Definition.faults,
      Schema.fieldFaults, Schema.searchType, rootF, rootG, format, Schema.rootName, Graph.Scalar.name,
      hquery, hf, hg, hF, hformat, hstring]

private theorem run_assemble : Graph.Work.run (Schema.assemble Graph.joinedName [offer]) (session []) =
    (.ok schema, (session [given]).close) := by
  have hdefine : Graph.Work.run (Schema.define (.node 0)) (session [given]) =
      (.ok (some (.object "F" none [format])), session [given]) := by
    show Graph.Work.run (Graph.nodeFields given.2 >>= _) _ = _
    rw [Graph.Work.run_bind_of_ok run_given]
    rfl
  have hstring : Graph.Work.run (Schema.define (.scalar .string)) (session [given]) =
      (.ok (some (.scalar .string)), session [given]) := rfl
  have hroot : Graph.Work.run (Schema.rootFields Graph.joinedName [offer]) (session []) =
      (.ok schema.root, session [given]) := by
    show Graph.Work.run ((Graph.compileFunction file f >>= _) >>= _) _ = _
    rw [Graph.Work.run_bind, Graph.Work.run_bind_of_ok run_functions.1]
    show Graph.Work.run ((Graph.compileFunction file g >>= _) >>= _) _ = _
    rw [Graph.Work.run_bind, Graph.Work.run_bind_of_ok run_functions.2]
    rfl
  refine Schema.run_assemble_of_ok hroot names_fine.2.1 ?_ isValid_schema
  obtain ⟨fuel, hfuel⟩ : ∃ fuel, Schema.typeBound (session [given]) = fuel + 1 + 1 := ⟨_, rfl⟩
  show Graph.Work.run (Schema.collectTypes (Schema.typeBound (session [given])) [] [.node 0, .scalar .string]) _ = _
  rw [hfuel, Schema.collectTypes_succ (by simp), Graph.Work.run_bind_of_ok hdefine]
  show Graph.Work.run (Schema.collectTypes (fuel + 1) [_] [.scalar .string, .scalar .string]) _ = _
  rw [Schema.collectTypes_succ (by simp), Graph.Work.run_bind_of_ok hstring]
  show Graph.Work.run (Schema.collectTypes fuel [_, _] [.scalar .string]) _ = _
  rw [Schema.collectTypes_of_met (by simp), Schema.collectTypes_nil]
  rfl

private theorem servicePath_eq : Schema.servicePath entangled config.idlPath (.text "s.thrift") = .ok file := by
  rfl

/-- Whether a file declares the struct and the functions. -/
def declaresGiven : Idl.Document → Bool
  | ⟨1, [.declaration (.struct ⟨.struct, 1, "F", [⟨1, "format", some 1, none, .base 1 "string", none, none⟩], none⟩),
      .service ⟨1, "S", none, [⟨1, "f", .named 1 "F", [], [], false, none⟩,
        ⟨1, "g", .base 1 "string", [], [], false, none⟩], none⟩], some ⟨["idl", "s.thrift"]⟩⟩ => true
  | _ => false

private theorem parsed_eq : entangled.document file = .ok parsed := by
  obtain ⟨d, hd, hview⟩ := Source.exists_document_of_any (t := entangled) (p := file) declaresGiven
    (by decide +kernel)
  unfold declaresGiven at hview
  split at hview
  · exact hd
  · cases hview

/-- The schema is generated from the file. -/
private theorem generate_eq :
    (Schema.generate entangled config Graph.declaredName Graph.joinedName true).outcome = .ok schema :=
  Schema.generate_of_service rfl servicePath_eq parsed_eq rfl rfl rfl run_assemble

/-- A client whose first function gives a value and whose second one fails.  What can be called tells whether a
single field is selected from the root. -/
def env (result : Value) : Environment where
  client := some fun _ => some fun method => some {
    mode := .plain
    apply := fun _ => if method = "f" then .ok result else .error ⟨"RuntimeError", "down"⟩ }
  globalHooks := {}
  methods := fun _ about =>
    .ok (.text (if about.setting.operation.selections.length = 1 then "alone" else "among others"))

/-- The text of the struct. -/
def inner : SelectedField := ⟨⟨11, 17⟩, none, ⟨⟨11, 17⟩, "format"⟩, [], [], none, []⟩

/-- The first function. -/
def a : SelectedField :=
  ⟨⟨2, 19⟩, some ⟨⟨2, 3⟩, "a"⟩, ⟨⟨5, 8⟩, "S_f"⟩, [], [], some ⟨9, 19⟩, [inner.toSelection]⟩

/-- The second function. -/
def b : SelectedField := ⟨⟨20, 26⟩, some ⟨⟨20, 21⟩, "b"⟩, ⟨⟨23, 26⟩, "S_g"⟩, [], [], none, []⟩

/-- Both functions are asked for. -/
def op : Operation := ⟨⟨0, 28⟩, .query, none, [], [], ⟨0, 28⟩, [a.toSelection, b.toSelection]⟩

/-- The request with the operation. -/
def whole : Document := ⟨28, [.operation op]⟩

private theorem passes_whole : Passes schema.known whole none [] op where
  faultless := rfl
  chosen := rfl
  query := rfl
  read := rfl

/-- The setting of the request. -/
abbrev setting : Setting := settingOf schema.known whole op [] .null

private theorem within_whole : setting.within Schema.rootName op.selections = .ok [a, b] := rfl

private theorem workOf?_eq (bindings : List (String × Value)) :
    workOf? schema bindings (groupOf [a, b] "a") = some (groupOf [a, b] "a", .call rootF []) ∧
      workOf? schema bindings (groupOf [a, b] "b") = some (groupOf [a, b] "b", .call rootG []) := ⟨rfl, rfl⟩

/-- How the calls end. -/
private theorem alone_eq (result : Value) :
    (Task.start (invocationOf (env result) .null rootF) []).alone.2 = .ok result ∧
      (Task.start (invocationOf (env result) .null rootG) []).alone.2 = .error (.raised ⟨"RuntimeError", "down"⟩) :=
  ⟨rfl, rfl⟩

private theorem callUnder?_b (result : Value) :
    callUnder? schema setting (env result) (groupOf [a, b] "b") =
      some (rootG, .error (.raised ⟨"RuntimeError", "down"⟩)) := by
  rw [callUnder?, (workOf?_eq _).2]
  exact congrArg (fun r => some (rootG, r)) (alone_eq result).2

/-- The text of the struct, where it is asked for. -/
def place (setting : Setting) : Inquiry :=
  ⟨setting, [.key "format" "F", .key "a" Schema.rootName], .node 0, format, [inner]⟩

section

variable (st : Setting) {result : Value} {text : String}
  (hs : st.system = schema.known) (hsize : st.document.size = 28) (hcontext : st.context = .null)
  (hresult : result ≠ .null ∧ result ≠ .undefined)
  (hmember : memberOf (env result).methods (place st) result = .ok (.text text))

include hs hsize hcontext hresult hmember

/-- Under the first key, the text of the struct is the member of the result. -/
private theorem valueUnder?_a :
    valueUnder? schema st (env result) (groupOf [a, b] "a") = some (Value.record [("format", .text text)]) := by
  have hd : st.system.definition? (.node 0) = some (.object "F" none [format]) := by
    rw [hs]
    rfl
  have hchosen : ∀ x ∈ [inner], isSelected st.system st.bindings x.directives = .ok true := by
    intro x hx
    rw [List.mem_singleton.1 hx]
    rfl
  have hwithin : st.within "F" [inner.toSelection] = .ok [inner] := collectFields_toSelection hchosen
  have hwritten : completeValue (env result).methods st 27 ⟨"F", "format"⟩
      [.key "format" "F", .key "a" Schema.rootName] [] (.named (.scalar .string)) (.text text) = .ok (.text text) := by
    rw [completeValue.eq_def, hs]
    rfl
  have hcomplete : completeMember (env result).methods st 27 "F" [.key "a" Schema.rootName] (.node 0) result
      ("format", [inner]) format = .ok (.text text) := by
    unfold completeMember
    unfold place at hmember
    dsimp only
    rw [hmember]
    exact hwritten
  have hgroups : (completeGroups (completeMember (env result).methods st 27 "F" [.key "a" Schema.rootName] (.node 0)
      result) "F" [format] (groupsOf [inner])).2 = .ok [("format", .text text)] := by
    have hname : inner.name = "format" := rfl
    have hkey : inner.key = "format" := rfl
    have hfield : format.name = "format" := rfl
    simp [groupsOf, addToGroups, completeGroups, hname, hkey, hfield, hcomplete, Completed.settle, Completed.ok,
      Except.map]
  have hvalue : resultUnder? (env result).methods st (groupOf [a, b] "a") rootF result =
      some (Value.record [("format", .text text)]) := by
    unfold resultUnder?
    rw [hsize]
    refine (value?_completeValue_object (env result).methods st 27 _ _ _ hd hresult.1 hresult.2).trans ?_
    show (st.within "F" [inner.toSelection]).toOption.bind _ = _
    rw [hwithin]
    exact congrArg (fun r => Option.map Value.record (Except.toOption r)) hgroups
  rw [valueUnder?, (workOf?_eq _).1, Option.bind_some, value_call, hcontext, (alone_eq result).1]
  simp only [Except.toOption, Option.bind_some, hvalue]
  rfl

end

/-- The request for the first function, with all else blank. -/
abbrev part : Document := only schema.known whole op [a]

/-- The setting of the part. -/
abbrev partSetting : Setting := settingOf schema.known part (cut schema.known whole op [a]) [] .null

/-- Where a member of the result tells different texts in the whole and in the part, so do the answers. -/
private theorem answers {result : Value} {text text' : String} (hresult : result ≠ .null ∧ result ≠ .undefined)
    (hwhole : memberOf (env result).methods (place setting) result = .ok (.text text))
    (hpart : memberOf (env result).methods (place partSetting) result = .ok (.text text')) :
    (∃ errors trace, answer schema (env result) whole none [] .null = .answered
        (Value.record [("a", Value.record [("format", .text text)]), ("b", .null)]) errors trace) ∧
      ∃ errors trace, answer schema (env result) part none [] .null = .answered
        (Value.record [("a", Value.record [("format", .text text')])]) errors trace := by
  have hroot : ∀ r ∈ schema.root, r.field.type.isNonNull = false := by decide
  have ha := valueUnder?_a setting rfl rfl rfl hresult hwhole
  have ha' : valueUnder? schema partSetting (env result) (groupOf [a] "a") = _ :=
    valueUnder?_a partSetting rfl rfl rfl hresult hpart
  have hb := valueUnder?_of_error hroot (callUnder?_b result)
  have hkeys : keysOf [a, b] = ["a", "b"] := rfl
  have hkeys' : keysOf [a] = ["a"] := rfl
  obtain ⟨hpasses, hwithin⟩ : Passes schema.known part none [] (cut schema.known whole op [a]) ∧
      partSetting.within Schema.rootName (cut schema.known whole op [a]).selections = .ok [a] :=
    passes_only passes_whole within_whole "a"
  constructor
  · obtain ⟨errors, trace, hrun, -⟩ := runFields_isolated setting (env result) hroot fun k hk =>
      exists_workOf? (passes_whole.selectsFromRoot within_whole) setting.bindings hk
    refine ⟨errors, trace, ?_⟩
    rw [answer_of_passes passes_whole, within_whole]
    refine hrun.trans ?_
    rw [dataUnder, hkeys, List.mapM_cons, List.mapM_cons, ha, hb]
    rfl
  · obtain ⟨errors, trace, hrun, -⟩ := runFields_isolated partSetting (env result) hroot fun k hk =>
      exists_workOf? (hpasses.selectsFromRoot hwithin) partSetting.bindings hk
    refine ⟨errors, trace, ?_⟩
    rw [answer_of_passes hpasses, hwithin]
    refine hrun.trans ?_
    rw [dataUnder, hkeys', List.mapM_cons, ha']
    rfl

/-- Something to be called. -/
def callable : Thing := ⟨0, "function", "<function>", "<function>", "function", true, true⟩

/-- A condition on a variable. -/
def condition : Request.Argument := ⟨⟨56, 61⟩, "if", .var "v"⟩

/-- A field that is left out if the variable says so. -/
def conditional : SelectedField :=
  ⟨⟨39, 62⟩, none, ⟨⟨39, 49⟩, "__typename"⟩, [], [⟨⟨50, 62⟩, ⟨⟨51, 55⟩, "skip"⟩, [condition]⟩], none, []⟩

/-- The schema is asked for. -/
def described : SelectedField :=
  ⟨⟨27, 64⟩, none, ⟨⟨27, 35⟩, "__schema"⟩, [], [], some ⟨36, 64⟩, [conditional.toSelection]⟩

/-- An operation with a condition on a variable. -/
def asking : Operation :=
  ⟨⟨0, 66⟩, .query, none, [⟨⟨6, 24⟩, "v", .named "Boolean", some (.bool true), []⟩], [], ⟨25, 66⟩,
    [described.toSelection]⟩

/-- The request with the operation. -/
def asks : Document := ⟨66, [.operation asking]⟩

end entangled

end ThriftGateway.Execution
