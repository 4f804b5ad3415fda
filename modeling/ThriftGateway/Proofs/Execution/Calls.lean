import ThriftGateway.Proofs.Execution.Roots
import ThriftGateway.Proofs.Schema.Exposure
import ThriftGateway.Proofs.Service.Order

/-!
# What requests can call

Every call of an answer is one of a root field (`exists_root_of_call`).  So under a strict configuration, requests call
only methods that are listed for a service and declared by the first service of its file (`root_of_exposed`).
-/

namespace ThriftGateway.Service

/-! ### Whose entries a trace has -/

/-- That a call is one of the function that an invocation calls. -/
def TraceEntry.IsBoundBy (i : Invocation) : TraceEntry → Prop
  | call service method _ => service = i.service ∧ method = i.method
  | _ => True

variable {e : TraceEntry}

private theorem Invocation.bound_of_mem_step {i : Invocation} {p : Progress} (h : e ∈ (i.step p).1) :
    e.IsBoundBy i := by
  unfold step at h
  split at h
  · cases h
  · split at h
    · cases h
    · cases h
    · rw [List.mem_singleton.1 h]
      rename_i stage info value _ _ _
      cases stage with
      | call => exact ⟨rfl, rfl⟩
      | globalRequest | methodRequest | globalResponse | methodResponse => trivial

private theorem Invocation.bound_of_mem_turn {i : Invocation} {fuel : Nat} {resumed : Bool} {p : Progress}
    (h : e ∈ (i.turn fuel resumed p).1) : e.IsBoundBy i := by
  induction fuel generalizing resumed p with
  | zero => cases h
  | succ fuel ih =>
    unfold turn at h
    split at h
    · cases h
    · rcases List.mem_append.1 h with h | h
      · exact bound_of_mem_step h
      · exact ih h

private theorem Task.bound_of_mem_turn {t : Task} (h : e ∈ t.turn.1) : e.IsBoundBy t.invocation := by
  unfold Task.turn at h
  split at h
  · cases h
  · exact Invocation.bound_of_mem_turn h

@[simp] theorem Task.invocation_turn (t : Task) : t.turn.2.invocation = t.invocation := by
  unfold Task.turn
  split <;> rfl

/-- In a round, calls are those of tasks, whose invocations stay. -/
private theorem bound_of_mem_round {ts : List Task} :
    (round ts).2.map Task.invocation = ts.map Task.invocation ∧
      ∀ e ∈ (round ts).1, ∃ i ∈ ts.map Task.invocation, e.IsBoundBy i := by
  induction ts with
  | nil => exact ⟨rfl, nofun⟩
  | cons t ts ih =>
    refine ⟨?_, fun e he => ?_⟩
    · show t.turn.2.invocation :: (round ts).2.map Task.invocation = _
      rw [Task.invocation_turn, ih.1]
      rfl
    · rcases List.mem_append.1 (show e ∈ t.turn.1 ++ (round ts).1 from he) with he | he
      · exact ⟨t.invocation, List.mem_cons_self, Task.bound_of_mem_turn he⟩
      · obtain ⟨i, hi, hbound⟩ := ih.2 e he
        exact ⟨i, List.mem_cons_of_mem _ hi, hbound⟩

private theorem bound_of_mem_rounds {n : Nat} {ts : List Task} (h : e ∈ (rounds n ts).1) :
    ∃ i ∈ ts.map Task.invocation, e.IsBoundBy i := by
  induction n generalizing ts with
  | zero => cases h
  | succ n ih =>
    rcases List.mem_append.1 (show e ∈ (round ts).1 ++ (rounds n (round ts).2).1 from h) with h | h
    · exact bound_of_mem_round.2 e h
    · have := ih h
      rwa [bound_of_mem_round.1] at this

/-- Every call of tasks that run side by side is that of one of them. -/
private theorem bound_of_mem_runAll {ts : List Task} (h : e ∈ (runAll ts).1) : ∃ t ∈ ts, e.IsBoundBy t.invocation := by
  obtain ⟨i, hi, hbound⟩ := bound_of_mem_rounds (show e ∈ (rounds (Stage.count + 1) ts).1 from h)
  obtain ⟨t, ht, rfl⟩ := List.mem_map.1 hi
  exact ⟨t, ht, hbound⟩

end ThriftGateway.Service

namespace ThriftGateway.Execution

open Graph (QueryNaming Session TypeNaming Work)
open Schema (Offer RootField Schema Stands exposed exposureLog isExposure offeredFunctions queryOf rootFields)
open Service (Task TraceEntry)
open Source (FileTree Path)

/-! ### Calls of an answer -/

/-- Every task of an operation is that of a root field. -/
private theorem exists_root_of_mem_tasksOf {s : Schema} {env : Environment} {context : Value}
    {bindings : List (String × Value)}
    {groups : List Group} {t : Task} (h : t ∈ tasksOf env context (rootWork s bindings groups)) :
    ∃ r ∈ s.root, t.invocation = invocationOf env context r := by
  obtain ⟨⟨g, w⟩, hw, ht⟩ := List.mem_filterMap.1 h
  obtain ⟨g', -, hg'⟩ := List.mem_filterMap.1 hw
  cases w with
  | call f arguments =>
    cases ht
    exact ⟨f, mem_root_of_workOf? hg', rfl⟩
  | typeName | description | refused => cases ht

/-- A request that is answered has run fields of the root, in the context that is given. -/
private theorem exists_runFields_of_execute {s : Schema} {env : Environment} {request : String} {name : Option String}
    {given : List (String × Value)} {context data : Value} {errors : List FieldError} {trace : List TraceEntry}
    (h : execute s env request name given context = .answered data errors trace) :
    ∃ setting fields, setting.context = context ∧ runFields s env setting fields = .answered data errors trace := by
  unfold execute at h
  split at h
  · cases h
  unfold answer at h
  split at h
  · split at h
    · cases h
    dsimp only at h
    split at h
    · unfold runOperation at h
      split at h
      · split at h
        · exact ⟨_, _, rfl, h⟩
        · cases h
      · cases h
    · cases h
    · cases h
  · cases h

/-- Whatever an answer has called is bound to a root field. -/
theorem exists_root_of_call {s : Schema} {env : Environment} {request : String} {name : Option String}
    {given : List (String × Value)} {context data : Value} {errors : List FieldError} {trace : List TraceEntry}
    (h : execute s env request name given context = .answered data errors trace) {service : Value} {method : String}
    {v : Value} (hcall : .call service method v ∈ trace) :
    ∃ r ∈ s.root, r.binding.service = service ∧ r.binding.function.name = method := by
  obtain ⟨setting, fields, -, hrun⟩ := exists_runFields_of_execute h
  cases hrun
  obtain ⟨t, ht, hbound⟩ := Service.bound_of_mem_runAll hcall
  obtain ⟨r, hr, hinvocation⟩ := exists_root_of_mem_tasksOf ht
  rw [hinvocation] at hbound
  exact ⟨r, hr, hbound.1.symm, hbound.2.symm⟩

/-! ### Exposed functions -/

/-- Root fields have the query names of the exposed functions in the order in which these first occur, and each calls
the last function of its name, as the field that the function is compiled to and with the hooks that the function's own
offer gives it.  Every taking over of a name and every function that is not exposed has been reported once.  So under a
strict configuration, an answer has called only methods that are listed for their service and declared by the first
service of its file. -/
theorem root_of_exposed :
    (∀ (queries : QueryNaming) (offers : List Offer) (s s' : Session) (root : List RootField),
      Work.run (rootFields queries offers) s = (.ok root, s') →
        root.map (·.field.name) = ((exposed offers).map (queryOf queries)).eraseDups ∧
        (∀ r ∈ root, ∃ x, ((exposed offers).filter fun x => queryOf queries x = r.field.name).getLast? = some x ∧
          Stands queries s' x r ∧ ∀ env context,
            let i := invocationOf env context r
            i.service = x.1.name ∧ i.function = x.2 ∧ i.globalHooks = env.globalHooks ∧
              i.methodHooks = x.1.hooks x.2.name) ∧
        ∃ added, s'.log = s.log ++ added ∧
          added.filter isExposure = exposureLog queries [] (offeredFunctions offers)) ∧
    (∀ (t : FileTree) (c : Config) (types : TypeNaming) (queries : QueryNaming) (hasClient : Bool) (s : Schema),
      (Schema.generate t c types queries hasClient).outcome = .ok s → c.strict.isTrue = true →
        ∀ env request name given context data errors trace,
          execute s env request name given context = .answered data errors trace →
            ∀ service method v, .call service method v ∈ trace →
              ∃ entry, (service, entry) ∈ c.services ∧
                (entry.methods.any fun e => Value.same (.text method) e.1) = true ∧
                ∃ file d declared, Schema.servicePath t c.idlPath entry.file = .ok file ∧ t.document file = .ok d ∧
                  d.services.head? = some declared ∧ ∃ f ∈ declared.functions, f.name = method) := by
  constructor
  · intro queries offers s s' root h
    obtain ⟨hroots, added, hlog, hadded, -⟩ := Schema.areRoots_of_rootFields h
    refine ⟨hroots.names_eq, fun r hr => ?_, added, hlog, hadded⟩
    obtain ⟨x, hx, hstands⟩ := hroots.exists_last hr
    refine ⟨x, hx, hstands, fun env context => ?_⟩
    simp only [invocationOf, hstands.binding, and_self]
  · intro t c types queries hasClient s h hstrict env request name given context data errors trace hanswer service
      method v hcall
    obtain ⟨r, hr, rfl, rfl⟩ := exists_root_of_call hanswer hcall
    obtain ⟨⟨key, entry⟩, hentry, o, ho, f, hf, hoffers, hbinding⟩ := Schema.exists_offer_of_generate h hr
    obtain ⟨d, hd, hhead⟩ := ho.service
    rw [hbinding]
    refine ⟨entry, ho.name ▸ hentry, ?_, o.file, d, o.service, ho.file, hd, hhead, f, hf, rfl⟩
    -- a strict offer offers what it lists
    rw [Offer.offers, ho.strict, hstrict, Bool.not_true, Bool.false_or, Offer.lists, ho.methods] at hoffers
    exact hoffers

/-! ### Functions of one query name -/

/-- A service of three functions, of which two are listed, one with a hook. -/
def contested : FileTree where
  working := ⟨["idl"]⟩
  files := [(contested.file, Text.encode "service S { i32 f() i32 g() i32 h() }")]
where
  file : Path := ⟨["idl", "s.thrift"]⟩
  function (name : String) : Idl.Function := ⟨1, name, .base 1 "i32", [], [], false, none⟩
  service : Idl.Service := ⟨1, "S", none, [function "f", function "g", function "h"], none⟩
  parsed : Idl.Document := ⟨1, [.service service], some file⟩
  hooks : Service.Hooks := { onRequest := some { mode := .plain, apply := fun _ v => .ok (.list [v]) } }
  methods : List (Value × Service.Hooks) := [(.text "f", {}), (.text "g", hooks)]
  entry : ServiceConfig := ⟨.text "s.thrift", .text "", [], methods⟩
  config : Config := { services := [(.text "svc", entry)] }
  offer : Offer := ⟨.text "svc", file, service, true, methods⟩

namespace contested

/-- All functions have one query name. -/
def naming : QueryNaming := fun _ _ => "q"

/-- The root field of a function. -/
def root (name : String) : RootField :=
  ⟨⟨"q", .named (.scalar .int), [], none⟩, ⟨.text "svc", function name, offer.hooks name⟩⟩

/-- The schema calls the last function that is listed. -/
def schema : Schema where
  root := [root "g"]
  types := [(.scalar .int, .scalar .int)]

/-- The session once the file has been read, with some reports. -/
def session (log : List Notice) : Session :=
  { Session.fresh false Graph.declaredName with library := ⟨[(file, parsed)]⟩, log := .parsed file :: log }

/-- What is reported of the functions. -/
def reports : List Notice := [.duplicateQuery "q" "svc" "g", .notListed "svc" "h"]

private theorem run_function (name : String) (log : List Notice) :
    Work.run (Graph.compileFunction file (function name)) (session log) =
      (.ok ⟨name, .named (.scalar .int), [], none⟩, session log) := by
  have hint : Graph.expandType (session log).library [] file (.base 1 "i32") = .ok ⟨[], .scalar .int⟩ :=
    Graph.expandType_base rfl
  exact Graph.run_compileFunction_of_scalar (f := function name) hint rfl

/-- The names of the schema are listed, legal and told apart as they have to be. -/
private theorem names_fine :
    (offer.offers (function "f") = true ∧ offer.offers (function "g") = true ∧ offer.offers (function "h") = false) ∧
      Graph.IsLegalName "q" ∧
      Schema.missingMethods (.text "svc") service (methods.map Prod.fst) = [] ∧
      exposureLog naming [] (offeredFunctions [offer]) = reports := by
  decide +kernel

private theorem run_rootFields :
    Work.run (rootFields naming [offer]) (session []) = (.ok schema.root, session reports) := by
  obtain ⟨⟨hoffersf, hoffersg, hoffersh⟩, -⟩ := names_fine
  have hf : Work.run (Schema.addRootField naming offer [] (function "f")) (session []) =
      (.ok [root "f"], session []) := by
    unfold Schema.addRootField
    rw [hoffersf]
    show Work.run (Graph.compileFunction file (function "f") >>= _) _ = _
    rw [Work.run_bind_of_ok (run_function "f" [])]
    rfl
  have hg : Work.run (Schema.addRootField naming offer [root "f"] (function "g")) (session []) =
      (.ok [root "g"], session [.duplicateQuery "q" "svc" "g"]) := by
    unfold Schema.addRootField
    rw [hoffersg]
    show Work.run (Graph.compileFunction file (function "g") >>= _) (session [.duplicateQuery "q" "svc" "g"]) = _
    rw [Work.run_bind_of_ok (run_function "g" _)]
    rfl
  have hh : Work.run (Schema.addRootField naming offer [root "g"] (function "h"))
      (session [.duplicateQuery "q" "svc" "g"]) = (.ok [root "g"], session reports) := by
    unfold Schema.addRootField
    rw [hoffersh]
    rfl
  show Work.run (Schema.addRootField naming offer [] (function "f") >>= _) _ = _
  rw [Work.run_bind_of_ok hf]
  show Work.run (Schema.addRootField naming offer [root "f"] (function "g") >>= _) _ = _
  rw [Work.run_bind_of_ok hg]
  show Work.run (Schema.addRootField naming offer [root "g"] (function "h") >>= _) _ = _
  rw [Work.run_bind_of_ok hh]
  rfl

private theorem run_assemble : Work.run (Schema.assemble naming [offer]) (session []) =
    (.ok schema, (session reports).close) := by
  refine Schema.run_assemble_of_scalar run_rootFields (List.cons_ne_nil _ _) ?_ ?_
  · exact List.forall_mem_singleton.2 ⟨names_fine.2.1, nofun⟩
  · exact List.forall_mem_singleton.2 rfl

private theorem servicePath_eq : Schema.servicePath contested config.idlPath (.text "s.thrift") = .ok file := by
  rfl

/-- Whether a file declares the three functions. -/
def declaresGiven : Idl.Document → Bool
  | ⟨1, [.service ⟨1, "S", none, [⟨1, "f", .base 1 "i32", [], [], false, none⟩,
      ⟨1, "g", .base 1 "i32", [], [], false, none⟩, ⟨1, "h", .base 1 "i32", [], [], false, none⟩], none⟩],
      some ⟨["idl", "s.thrift"]⟩⟩ => true
  | _ => false

private theorem parsed_eq : contested.document file = .ok parsed := by
  obtain ⟨d, hd, hview⟩ := Source.exists_document_of_any (t := contested) (p := file) declaresGiven (by decide +kernel)
  unfold declaresGiven at hview
  split at hview
  · exact hd
  · cases hview

/-- The schema is generated from the file. -/
private theorem generate_eq :
    (Schema.generate contested config Graph.declaredName naming true).outcome = .ok schema :=
  Schema.generate_of_service rfl servicePath_eq parsed_eq rfl rfl (congrArg (· ++ []) names_fine.2.2.1) run_assemble

/-- A client whose functions all give a number. -/
def env : Environment where
  client := some fun _ => some fun _ => some { mode := .plain, apply := fun _ => .ok (.int 7) }
  globalHooks := {}
  methods := fun _ _ => .ok .null

/-- A request for the root field, by way of a fragment. -/
def text : String := "\x7b ...R \x7d fragment R on Query \x7b q \x7d"

/-- The root field. -/
def q : Request.SelectedField := ⟨⟨31, 32⟩, none, ⟨⟨31, 32⟩, "q"⟩, [], [], none, []⟩

/-- The operation of the request. -/
def operation : Request.Operation := ⟨⟨0, 8⟩, .query, none, [], [], ⟨0, 8⟩, [.spread ⟨2, 6⟩ ⟨⟨5, 6⟩, "R"⟩ []]⟩

/-- The fragment of the request. -/
def fragment : Request.Fragment :=
  ⟨⟨9, 34⟩, ⟨⟨18, 19⟩, "R"⟩, ⟨⟨23, 28⟩, "Query"⟩, [], ⟨29, 34⟩, [q.toSelection]⟩

/-- The request. -/
def document : Request.Document := ⟨34, [.operation operation, .fragment fragment]⟩

/-- The setting of the request. -/
def setting : Setting := ⟨schema.known, document, operation, [], .null⟩

/-- Whether a request has been read as the one that is given. -/
def isGiven : Except Request.SyntaxError Request.Document → Bool
  | .ok ⟨34, [.operation ⟨⟨0, 8⟩, .query, none, [], [], ⟨0, 8⟩, [.spread ⟨2, 6⟩ ⟨⟨5, 6⟩, "R"⟩ []]⟩,
      .fragment ⟨⟨9, 34⟩, ⟨⟨18, 19⟩, "R"⟩, ⟨⟨23, 28⟩, "Query"⟩, [], ⟨29, 34⟩,
        [.field ⟨31, 32⟩ none ⟨⟨31, 32⟩, "q"⟩ [] [] none []]⟩]⟩ => true
  | _ => false

private theorem parseDocument_text : Request.parseDocument text = .ok document := by
  have hgiven : isGiven (Request.parseDocument text) = true := by decide +kernel
  generalize Request.parseDocument text = r at hgiven ⊢
  unfold isGiven at hgiven
  split at hgiven
  · rfl
  · cases hgiven

private theorem requestFaults_document : requestFaults schema.known document = [] := rfl

/-- What is run: the hook, and then the function. -/
def trace : List TraceEntry :=
  [.onRequest .method { context := .null, service := .text "svc", method := .text "g" } (Value.record []),
    .call (.text "svc") "g" (.list [Value.record []])]

/-- The work of the request. -/
def work : List (Group × RootWork) := [(("q", [q]), .call (root "g") [])]

private theorem rootWork_eq : rootWork schema setting.bindings (groupsOf [q]) = work := rfl

private theorem runAll_eq : Service.runAll (tasksOf env setting.context work) = (trace, [⟨1, .ok (.int 7)⟩]) := by
  have hroot : root "g" = ⟨⟨"q", .named (.scalar .int), [], none⟩, ⟨.text "svc", function "g", hooks⟩⟩ := by
    have hhooks : offer.hooks "g" = hooks := by
      simp [Offer.hooks, offer, methods, Value.same_text]
    rw [root, hhooks]
  rw [work, hroot]
  rfl

private theorem completeRoot_eq :
    completeRoot env.methods setting ("q", [q]) (root "g").field (.ok (.int 7)) = .ok (.int 7) := by
  rw [completeRoot]
  dsimp only
  rw [completeValue.eq_def]
  rfl

private theorem answer_eq : answer schema env document none [] .null = runFields schema env setting [q] := by
  unfold answer
  rw [requestFaults_document]
  rfl

/-- The request calls the function behind its hook. -/
private theorem execute_text : execute schema env text none [] .null =
    .answered (Value.record [("q", .int 7)]) [] trace := by
  unfold execute
  rw [parseDocument_text]
  refine answer_eq.trans ?_
  unfold runFields
  dsimp only
  rw [rootWork_eq, runAll_eq, work]
  simp only [rootEntries, List.head?_cons, Option.getD_some, completeRoot_eq, errorsOf, List.mergeSort_singleton]
  rfl

end contested

/-- The root field of three functions with one query name calls the last of those that are listed, behind the hook of
its own, and the call is one of a listed method that the service declares. -/
theorem root_of_exposed_contested :
    Work.run (rootFields contested.naming [contested.offer]) (contested.session []) =
        (.ok contested.schema.root, contested.session contested.reports) ∧
      contested.schema.root.map (·.field.name) = ["q"] ∧
      (∃ added, (contested.session contested.reports).log = (contested.session []).log ++ added ∧
        added.filter isExposure = [.duplicateQuery "q" "svc" "g", .notListed "svc" "h"]) ∧
      (Schema.generate contested contested.config Graph.declaredName contested.naming true).outcome =
        .ok contested.schema ∧
      contested.config.strict.isTrue = true ∧
      execute contested.schema contested.env contested.text none [] .null =
        .answered (Value.record [("q", .int 7)]) [] contested.trace ∧
      ∃ entry, (.text "svc", entry) ∈ contested.config.services ∧
        (entry.methods.any fun e => Value.same (.text "g") e.1) = true := by
  obtain ⟨hnames, -, added, hlog, hadded⟩ := root_of_exposed.1 _ _ _ _ _ contested.run_rootFields
  obtain ⟨entry, hentry, hlisted, -⟩ := root_of_exposed.2 _ _ _ _ _ _ contested.generate_eq rfl _ _ _ _ _ _ _ _
    contested.execute_text (.text "svc") "g" _ (List.mem_cons_of_mem _ List.mem_cons_self)
  exact ⟨contested.run_rootFields, rfl, ⟨added, hlog, hadded.trans contested.names_fine.2.2.2⟩,
    contested.generate_eq, rfl, contested.execute_text, entry, hentry, hlisted⟩

end ThriftGateway.Execution
