import ThriftGateway.Proofs.Execution.Roots

/-!
# Answers in all modes

Where callables give way to one another decides only in which order the calls behind the root fields are run.  Where the
client and all hooks do the same, in whatever modes, a request is answered with the same data and the same errors, and
under each root field the same is run (`agrees_execute`).
-/

namespace ThriftGateway

/-! ### The same at once -/

/-- A root field whose hooks do the same at once. -/
def Schema.RootField.plain (r : Schema.RootField) : Schema.RootField :=
  { r with binding := { r.binding with hooks := r.binding.hooks.plain } }

/-- A schema whose hooks do the same at once. -/
def Schema.Schema.plain (s : Schema.Schema) : Schema.Schema := { s with root := s.root.map Schema.RootField.plain }

namespace Execution

open Request (SelectedField)
open Schema (Schema)
open Service (Callable Client Hook Stage TraceEntry keyedRounds runsUnder)

/-- An environment whose callables do the same at once. -/
def Environment.plain (env : Environment) : Environment where
  client := env.client.map Client.plain
  globalHooks := env.globalHooks.plain
  methods := env.methods

/-- What a root field does, at once. -/
def RootWork.plain : RootWork → RootWork
  | typeName => typeName
  | description f part => description f part
  | call f arguments => call f.plain arguments
  | refused f message => refused f message

/-- What fields of the root run, each entry with the key of the field that it is run for. -/
def fieldRuns (s : Schema) (env : Environment) (setting : Setting) (fields : List SelectedField) :
    List (String × TraceEntry) :=
  (keyedRounds (Stage.count + 1)
    (keyedTasksOf env setting.context (rootWork s setting.bindings (groupsOf fields)))).1

/-- What a request runs, each entry with the key of the root field that it is run for. -/
def requestRuns (s : Schema) (env : Environment) (request : String) (name : Option String)
    (given : List (String × Value)) (context : Value) : List (String × TraceEntry) :=
  match Request.parseDocument request with
  | .error _ => []
  | .ok d =>
    match chosenOperation d name with
    | .error _ => []
    | .ok op =>
      let setting : Setting := ⟨s.known, d, op, (readVariables s.known given op.parameters).1, context⟩
      match setting.within Schema.rootName op.selections with
      | .error _ => []
      | .ok fields => fieldRuns s env setting fields

/-- That two responses are the same but for the order in which errors come up and root fields take turns; `runs` and
`runs'` are what is run for them. -/
inductive Agrees (runs runs' : List (String × TraceEntry)) : Response → Response → Prop
  | refused (reason : Refusal) : Agrees runs runs' (.refused reason) (.refused reason)
  | brokenOff (reason : Breakdown) : Agrees runs runs' (.brokenOff reason) (.brokenOff reason)
  | answered (data : Value) {errors errors' : List FieldError} (herrors : errors.Perm errors')
      (hruns : ∀ key, runsUnder key runs = runsUnder key runs') :
      Agrees runs runs' (.answered data errors (runs.map Prod.snd)) (.answered data errors' (runs'.map Prod.snd))

/-! ### A schema and its plain one -/

@[simp] theorem system_plain (s : Schema) : s.plain.system = s.system := by
  simp only [Schema.Schema.system, Schema.Schema.plain, List.map_map]
  rfl

@[simp] theorem known_plain (s : Schema) : s.plain.known = s.known := by
  rw [Schema.Schema.known, system_plain, Schema.Schema.known]

private theorem rootField?_plain (s : Schema) (name : String) :
    s.plain.rootField? name = (s.rootField? name).map Schema.RootField.plain := by
  unfold Schema.Schema.rootField? Schema.Schema.plain
  rw [List.find?_map]
  rfl

private theorem rootWorkOf_plain (s : Schema) (bindings : List (String × Value)) (x : SelectedField) :
    rootWorkOf s.plain bindings x = (rootWorkOf s bindings x).map RootWork.plain := by
  unfold rootWorkOf
  rw [rootField?_plain, known_plain]
  by_cases hname : x.name = typeNameField
  · simp only [if_pos hname]
    rfl
  · simp only [if_neg hname]
    cases s.known.describingField? x.name with
    | some f =>
      dsimp only
      cases readArguments s.known bindings x.arguments f.arguments <;> rfl
    | none =>
      cases s.rootField? x.name with
      | none => rfl
      | some f =>
        have hfield : f.plain.field = f.field := rfl
        simp only [Option.map_some, hfield]
        cases readArguments s.known bindings x.arguments f.field.arguments <;> rfl

/-- At once, the same root fields have the same to do. -/
private theorem rootWork_plain (s : Schema) (bindings : List (String × Value)) (groups : List Group) :
    rootWork s.plain bindings groups = (rootWork s bindings groups).map fun w => (w.1, w.2.plain) := by
  have hwork : ∀ g, workOf? s.plain bindings g = (workOf? s bindings g).map fun w => (w.1, w.2.plain) := by
    intro g
    unfold workOf?
    cases g.2.head? with
    | none => rfl
    | some x =>
      rw [Option.bind_some, Option.bind_some, rootWorkOf_plain, Option.map_map, Option.map_map]
      rfl
  unfold rootWork
  rw [List.map_filterMap]
  exact congrArg (List.filterMap · groups) (funext hwork)

/-! ### An environment and its plain one -/

private theorem taskOf?_plain (env : Environment) (context : Value) (g : Group) (w : RootWork) :
    taskOf? env.plain context (g, w.plain) = (taskOf? env context (g, w)).map Service.Task.plain := by
  cases w <;> rfl

private theorem keyedTasksOf_plain (env : Environment) (context : Value) (work : List (Group × RootWork)) :
    keyedTasksOf env.plain context (work.map fun w => (w.1, w.2.plain)) =
      (keyedTasksOf env context work).map fun t => (t.1, t.2.plain) := by
  unfold keyedTasksOf
  rw [List.map_filterMap, List.filterMap_map]
  congr 1
  funext w
  show (taskOf? env.plain context (w.1, w.2.plain)).map _ = _
  rw [taskOf?_plain, Option.map_map, Option.map_map]
  rfl

private theorem rootEntryAlone_plain (setting : Setting) (env : Environment) (w : Group × RootWork) :
    rootEntryAlone setting env.plain (w.1, w.2.plain) = rootEntryAlone setting env w := by
  obtain ⟨group, w⟩ := w
  cases w with
  | typeName | description | refused => rfl
  | call f arguments =>
    have halone := (Service.Task.isFresh_start (invocationOf env setting.context f) arguments).alone_plain
    exact congrArg (fun r : List TraceEntry × _ => RootEntry.ofCompleted group.1 0
      (completeRoot env.methods setting group f.field r.2)) halone

section

variable {s s' : Schema} {env env' : Environment}

/-- Under each root field, the same is run. -/
private theorem runsUnder_congr (hs : s.plain = s'.plain) (h : env.plain = env'.plain) (setting : Setting)
    (fields : List SelectedField) (key : String) :
    runsUnder key (fieldRuns s env setting fields) = runsUnder key (fieldRuns s' env' setting fields) := by
  unfold fieldRuns
  rw [← Service.runsUnder_plain (nodup_keyedTasksOf (nodup_rootWork s setting.bindings fields)) isFresh_keyedTasksOf,
    ← keyedTasksOf_plain, ← rootWork_plain, hs, h, rootWork_plain, keyedTasksOf_plain,
    Service.runsUnder_plain (nodup_keyedTasksOf (nodup_rootWork s' setting.bindings fields)) isFresh_keyedTasksOf]

/-- Fields of the root are answered the same. -/
private theorem agrees_runFields (hs : s.plain = s'.plain) (h : env.plain = env'.plain) (setting : Setting)
    (fields : List SelectedField) :
    Agrees (fieldRuns s env setting fields) (fieldRuns s' env' setting fields) (runFields s env setting fields)
      (runFields s' env' setting fields) := by
  obtain ⟨errors, hperm, hrun⟩ := runFields_eq s env setting fields
  obtain ⟨errors', hperm', hrun'⟩ := runFields_eq s' env' setting fields
  have halone : (rootWork s setting.bindings (groupsOf fields)).map (rootEntryAlone setting env) =
      (rootWork s' setting.bindings (groupsOf fields)).map (rootEntryAlone setting env') := by
    have hplain : ∀ (s : Schema) (env : Environment),
        (rootWork s setting.bindings (groupsOf fields)).map (rootEntryAlone setting env) =
          (rootWork s.plain setting.bindings (groupsOf fields)).map (rootEntryAlone setting env.plain) := by
      intro s env
      rw [rootWork_plain, List.map_map]
      exact List.map_congr_left fun w _ => (rootEntryAlone_plain setting env w).symm
    rw [hplain s env, hplain s' env', hs, h]
  rw [hrun, hrun', ← halone]
  exact .answered _ (hperm.trans (halone ▸ hperm'.symm)) (runsUnder_congr hs h setting fields)

/-- Where the client and all hooks, those of single functions too, do the same, a request is answered with the same data
and the same errors, and under each root field the same is run, whatever gives way. -/
theorem agrees_execute (hs : s.plain = s'.plain) (h : env.plain = env'.plain) (request : String)
    (name : Option String) (given : List (String × Value)) (context : Value) :
    Agrees (requestRuns s env request name given context) (requestRuns s' env' request name given context)
      (execute s env request name given context) (execute s' env' request name given context) := by
  have hknown : s.known = s'.known := by rw [← known_plain s, hs, known_plain]
  unfold requestRuns execute
  cases Request.parseDocument request with
  | error e => exact .refused _
  | ok d =>
    dsimp only
    unfold answer
    rw [← hknown]
    cases requestFaults s.known d with
    | cons => exact .refused _
    | nil =>
      dsimp only
      cases chosenOperation d name with
      | error message => exact .refused _
      | ok op =>
        dsimp only
        cases variableReport maxVariableFaults (readVariables s.known given op.parameters).2 with
        | error b => exact .brokenOff b
        | ok faults =>
          cases faults with
          | cons => exact .refused _
          | nil =>
            unfold runOperation
            dsimp only
            by_cases hkind : op.kind = .query
            · rw [if_pos hkind, if_pos hkind]
              cases Setting.within ⟨s.known, d, op, (readVariables s.known given op.parameters).1, context⟩
                  Schema.rootName op.selections with
              | error message => exact .refused _
              | ok fields => exact agrees_runFields hs h _ fields
            · rw [if_neg hkind, if_neg hkind]
              exact .refused _

end

/-- An environment whose hook hands on what it is given, and whose client fails in a mode. -/
def failingIn (mode : Service.Mode) : Environment where
  client := some fun _ => some fun _ => some { mode, apply := fun _ => .error ⟨"RuntimeError", "down"⟩ }
  globalHooks := { onRequest := some { mode := .plain, apply := fun _ v => .ok v } }
  methods := fun _ _ => .ok .null

namespace failingIn

/-- A root field, whose own hook hands on what it is given in a mode. -/
def field (mode : Service.Mode) : Schema.RootField :=
  ⟨⟨"f", .named (.scalar .int), [], none⟩,
    ⟨.text "svc", ⟨1, "m", .base 1 "i32", [], [], false, none⟩,
      { onRequest := some { mode, apply := fun _ v => .ok v } }⟩⟩

/-- A schema with one root field. -/
def schema (mode : Service.Mode) : Schema where
  root := [field mode]
  types := [(.scalar .int, .scalar .int)]

/-- A request for the field twice, once by way of a fragment. -/
def text : String := "\x7b a: f ...R \x7d fragment R on Query \x7b b: f \x7d"

/-- The field. -/
def a : SelectedField := ⟨⟨2, 6⟩, some ⟨⟨2, 3⟩, "a"⟩, ⟨⟨5, 6⟩, "f"⟩, [], [], none, []⟩

/-- The field in the fragment. -/
def b : SelectedField := ⟨⟨36, 40⟩, some ⟨⟨36, 37⟩, "b"⟩, ⟨⟨39, 40⟩, "f"⟩, [], [], none, []⟩

/-- The operation of the request. -/
def operation : Request.Operation :=
  ⟨⟨0, 13⟩, .query, none, [], [], ⟨0, 13⟩, [a.toSelection, .spread ⟨7, 11⟩ ⟨⟨10, 11⟩, "R"⟩ []]⟩

/-- The request. -/
def document : Request.Document :=
  ⟨42, [.operation operation,
    .fragment ⟨⟨14, 42⟩, ⟨⟨23, 24⟩, "R"⟩, ⟨⟨28, 33⟩, "Query"⟩, [], ⟨34, 42⟩, [b.toSelection]⟩]⟩

variable (mode mode' : Service.Mode)

/-- The setting of the request. -/
def setting : Setting := ⟨(schema mode).known, document, operation, [], .null⟩

/-- Whether a request has been read as the one that is given. -/
def isGiven : Except Request.SyntaxError Request.Document → Bool
  | .ok ⟨42, [.operation ⟨⟨0, 13⟩, .query, none, [], [], ⟨0, 13⟩,
        [.field ⟨2, 6⟩ (some ⟨⟨2, 3⟩, "a"⟩) ⟨⟨5, 6⟩, "f"⟩ [] [] none [], .spread ⟨7, 11⟩ ⟨⟨10, 11⟩, "R"⟩ []]⟩,
      .fragment ⟨⟨14, 42⟩, ⟨⟨23, 24⟩, "R"⟩, ⟨⟨28, 33⟩, "Query"⟩, [], ⟨34, 42⟩,
        [.field ⟨36, 40⟩ (some ⟨⟨36, 37⟩, "b"⟩) ⟨⟨39, 40⟩, "f"⟩ [] [] none []]⟩]⟩ => true
  | _ => false

private theorem parseDocument_text : Request.parseDocument text = .ok document := by
  have hgiven : isGiven (Request.parseDocument text) = true := by decide +kernel
  generalize Request.parseDocument text = r at hgiven ⊢
  unfold isGiven at hgiven
  split at hgiven
  · rfl
  · cases hgiven

private theorem requestFaults_document : requestFaults (schema mode).known document = [] := by
  have hfaults : requestFaults (schema .plain).known document = [] := List.isEmpty_iff.1 (by decide +kernel)
  exact hfaults

private theorem answer_eq : answer (schema mode) (failingIn mode') document none [] .null =
    runFields (schema mode) (failingIn mode') (setting mode) [a, b] := by
  unfold answer
  rw [requestFaults_document]
  rfl

/-- The error that comes up under a key. -/
def errorAt (key : String) : FieldError := ⟨"down", [.key key], .call (.raised ⟨"RuntimeError", "down"⟩)⟩

/-- Whatever gives way, both fields fail. -/
private theorem execute_text : ∃ trace, execute (schema mode) (failingIn mode') text none [] .null =
    .answered (Value.record [("a", .null), ("b", .null)]) [errorAt "a", errorAt "b"] trace := by
  have hwork : rootWork (schema mode) (setting mode).bindings (groupsOf [a, b]) =
      [(("a", [a]), .call (field mode) []), (("b", [b]), .call (field mode) [])] := rfl
  obtain ⟨trace, n, n', hle, hrun⟩ : ∃ trace n n', n ≤ n' ∧
      Service.runAll (tasksOf (failingIn mode') (setting mode).context
        [(("a", [a]), .call (field mode) []), (("b", [b]), .call (field mode) [])]) =
        (trace, [⟨n, .error (.raised ⟨"RuntimeError", "down"⟩)⟩, ⟨n', .error (.raised ⟨"RuntimeError", "down"⟩)⟩]) := by
    cases mode <;> cases mode' <;> exact ⟨_, _, _, by decide, rfl⟩
  have herrors : errorsOf [⟨"a", some .null, n, [errorAt "a"]⟩, ⟨"b", some .null, n', [errorAt "b"]⟩] =
      [errorAt "a", errorAt "b"] := by
    rw [errorsOf, List.mergeSort_of_pairwise (by simpa using hle)]
    rfl
  refine ⟨trace, ?_⟩
  unfold execute
  rw [parseDocument_text]
  refine (answer_eq mode mode').trans ?_
  unfold runFields
  dsimp only
  rw [hwork, hrun]
  exact congrArg (Response.answered _ · trace) herrors

/-- What is run under the two keys, one after the other or in turns. -/
private theorem keys_requestRuns :
    (requestRuns (schema .awaited) (failingIn .plain) text none [] .null).map Prod.fst =
        ["a", "a", "a", "b", "b", "b"] ∧
      (requestRuns (schema .yielding) (failingIn .yielding) text none [] .null).map Prod.fst =
        ["a", "b", "a", "b", "a", "b"] := by
  decide +kernel

end failingIn

/-- Two fields fail one after the other or in turns, and the answers agree. -/
theorem agrees_execute_failing :
    (failingIn.schema .awaited).plain = (failingIn.schema .yielding).plain ∧
      (failingIn .plain).plain = (failingIn .yielding).plain ∧
      (requestRuns (failingIn.schema .awaited) (failingIn .plain) failingIn.text none [] .null).map Prod.fst =
        ["a", "a", "a", "b", "b", "b"] ∧
      (requestRuns (failingIn.schema .yielding) (failingIn .yielding) failingIn.text none [] .null).map Prod.fst =
        ["a", "b", "a", "b", "a", "b"] ∧
      (∀ mode mode', ∃ trace, execute (failingIn.schema mode) (failingIn mode') failingIn.text none [] .null =
        .answered (Value.record [("a", .null), ("b", .null)]) [failingIn.errorAt "a", failingIn.errorAt "b"] trace) ∧
      Agrees (requestRuns (failingIn.schema .awaited) (failingIn .plain) failingIn.text none [] .null)
        (requestRuns (failingIn.schema .yielding) (failingIn .yielding) failingIn.text none [] .null)
        (execute (failingIn.schema .awaited) (failingIn .plain) failingIn.text none [] .null)
        (execute (failingIn.schema .yielding) (failingIn .yielding) failingIn.text none [] .null) := by
  have hs : (failingIn.schema .awaited).plain = (failingIn.schema .yielding).plain := rfl
  have hsame : (failingIn .plain).plain = (failingIn .yielding).plain := rfl
  exact ⟨hs, hsame, failingIn.keys_requestRuns.1, failingIn.keys_requestRuns.2, failingIn.execute_text,
    agrees_execute hs hsame failingIn.text none [] .null⟩

end Execution

end ThriftGateway
