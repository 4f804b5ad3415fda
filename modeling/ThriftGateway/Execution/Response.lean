import ThriftGateway.Execution.Introspection
import ThriftGateway.Execution.Validation
import ThriftGateway.Request.Parser

/-!
# Answering requests

A request is parsed and checked, one of its operations is chosen and given its variables, and the fields of the root are
selected.  Then the calls behind them run side by side, and each result is completed as soon as it is there.  The errors
of an answer stand in the order in which they come up: those of fields that are not called before all others, then those
of each round of calls.
-/

namespace ThriftGateway.Execution

open Graph (GraphType InputField OutputField)
open Request (Document Operation OperationKind SelectedField Variable)
open Schema (RootField Schema TypeSystem)
open Service (CallError Client Ending Hooks Invocation Task TraceEntry)

/-- What all calls of a schema have in common: the client, the hooks that run around every call, and what the callable
objects in results give. -/
structure Environment where
  client : Option Client
  globalHooks : Hooks
  methods : Methods

/-- Something wrong with the variables that are given. -/
inductive VariableFault where
  | invalid (message : String)
  | tooDeep
  | tooMany
  deriving DecidableEq, Repr

/-- The words for it. -/
def VariableFault.message : VariableFault → String
  | invalid message => message
  | tooDeep => "Variable values are nested too deeply."
  | tooMany => "Too many errors processing variables, error limit reached. Execution aborted."

/-- Why a request is not run. -/
inductive Refusal where
  | malformed (error : Request.SyntaxError)
  | faults (faults : List RequestFault)
  /-- There is no operation to run. -/
  | noOperation (message : String)
  /-- Variables cannot be read. -/
  | badVariables (faults : List VariableFault)
  /-- There are only queries. -/
  | noRoot (kind : OperationKind)
  /-- It cannot be decided which fields of the root are selected. -/
  | undecided (message : String)

/-- What a request gets. -/
inductive Response where
  | refused (reason : Refusal)
  | answered (data : Value) (errors : List FieldError) (trace : List TraceEntry)
  /-- There is no answer, for what is wrong cannot be said. -/
  | brokenOff (reason : Breakdown)

/-! ### Variables -/

/-- Reads one variable: its value if it has one, or what is wrong. -/
def readVariable (s : TypeSystem) (given : List (String × Value)) (v : Variable) :
    Except (List Finding) (Option Value) :=
  match typeOf? s v.type with
  | none => .ok none
  | some t =>
    match given.lookup v.name, v.default with
    | none, some d => .ok (readLiteral s [] t d)
    | none, none => if t.isNonNull then .error (valueFindings s t .undefined) else .ok none
    | some x, _ =>
      match readValue s t x with
      | .ok w => .ok (some w)
      | .error .wrong => .error (valueFindings s t x)
      | .error .tooDeep => .error [.tooDeep]

/-- Reads the variables of an operation: their values, and all that is found wrong, with the names. -/
def readVariables (s : TypeSystem) (given : List (String × Value)) : List Variable →
    List (String × Value) × List (String × Finding)
  | [] => ([], [])
  | v :: vs =>
    let (values, findings) := readVariables s given vs
    match readVariable s given v with
    | .ok (some x) => ((v.name, x) :: values, findings)
    | .ok none => (values, findings)
    | .error fs => (values, fs.map (fun f => (v.name, f)) ++ findings)

/-- The most faults of variables that are reported. -/
def maxVariableFaults : Nat := 50

/-- The faults that are reported for what is found wrong, if `room` more fit. -/
def variableReport : (room : Nat) → List (String × Finding) → Except Breakdown (List VariableFault)
  | _, [] => .ok []
  | _, (_, .tooDeep) :: _ => .ok [.tooDeep]
  | _, (_, .breakdown b) :: _ => .error b
  | 0, (_, .fault _) :: _ => .ok [.tooMany]
  | room + 1, (name, .fault f) :: findings => do
    let message := "Variable '$" ++ name ++ "' has invalid value" ++ pathText f.path ++ ": " ++ f.message
    return .invalid message :: (← variableReport room findings)

/-! ### Root fields -/

/-- What a selected root field does. -/
inductive RootWork where
  /-- It tells the name of the root type. -/
  | typeName
  /-- It describes a part of the schema, or nothing. -/
  | description (field : OutputField) (part : Option Described)
  /-- It calls a function. -/
  | call (field : RootField) (arguments : List (String × Value))
  /-- Its arguments cannot be read. -/
  | refused (field : OutputField) (message : String)

/-- What a field of the root does under a key, if there is such a field. -/
def rootWorkOf (s : Schema) (bindings : List (String × Value)) (x : SelectedField) : Option RootWork :=
  if x.name = typeNameField then some .typeName
  else
    match s.known.describingField? x.name, s.rootField? x.name with
    | some f, _ =>
      match readArguments s.known bindings x.arguments f.arguments with
      | .ok arguments => some (.description f (describedAt s.known x.name arguments))
      | .error message => some (.refused f message)
    | none, some f =>
      match readArguments s.known bindings x.arguments f.field.arguments with
      | .ok arguments => some (.call f arguments)
      | .error message => some (.refused f.field message)
    | none, none => none

/-- What a group of fields of the root does, if there is such a field. -/
def workOf? (s : Schema) (bindings : List (String × Value)) (g : Group) : Option (Group × RootWork) :=
  (g.2.head?.bind (rootWorkOf s bindings)).map (g, ·)

/-- What the groups of fields of the root do, those left out that there are not. -/
def rootWork (s : Schema) (bindings : List (String × Value)) (groups : List Group) : List (Group × RootWork) :=
  groups.filterMap (workOf? s bindings)

/-- The call behind a root field. -/
def invocationOf (env : Environment) (context : Value) (f : RootField) : Invocation :=
  { client := env.client, globalHooks := env.globalHooks, methodHooks := f.binding.hooks,
    service := f.binding.service, function := f.binding.function, context }

/-- The tasks of the root fields that call functions. -/
def tasksOf (env : Environment) (context : Value) (work : List (Group × RootWork)) : List Task :=
  work.filterMap fun
    | (_, .call f arguments) => some (Task.start (invocationOf env context f) arguments)
    | _ => none

/-- Completes the result of a call. -/
def completeRoot (methods : Methods) (setting : Setting) (group : Group) (f : OutputField)
    (r : Except CallError Value) : Completed :=
  let trail := [Waypoint.key group.1 Schema.rootName]
  let c : Completed := match r with
    | .error e => ⟨[], .error ⟨e.message, pathOf trail, .call e⟩⟩
    | .ok v =>
      completeValue methods setting setting.document.size ⟨Schema.rootName, f.name⟩ trail group.inner f.type v
  c.settle f.type

/-- Completes a description. -/
def completeDescription (setting : Setting) (group : Group) (f : OutputField) (part : Option Described) : Completed :=
  let trail := [Waypoint.key group.1 Schema.rootName]
  (part.elim (.ok .null) (completeDescribed setting setting.document.size trail group.inner)).settle f.type

/-- What a root field gives: its value under its key, the errors of the field, and the round of calls in which they
come up. -/
structure RootEntry where
  key : String
  /-- None if an error goes on to the root. -/
  value : Option Value
  round : Nat
  errors : List FieldError

/-- What a root field gives once its value has been completed. -/
def RootEntry.ofCompleted (key : String) (round : Nat) (c : Completed) : RootEntry :=
  match c.result with
  | .ok v => ⟨key, some v, round, c.errors⟩
  | .error e => ⟨key, none, round, c.errors ++ [e]⟩

/-- What the root fields give.  `endings` says how the calls have ended, in order. -/
def rootEntries (methods : Methods) (setting : Setting) : List (Group × RootWork) → List Ending → List RootEntry
  | [], _ => []
  | (group, .typeName) :: work, endings =>
    ⟨group.1, some (.text Schema.rootName), 0, []⟩ :: rootEntries methods setting work endings
  | (group, .description f part) :: work, endings =>
    .ofCompleted group.1 0 (completeDescription setting group f part) :: rootEntries methods setting work endings
  | (group, .refused f message) :: work, endings =>
    let c : Completed := ⟨[], .error ⟨message, [.key group.1], .arguments⟩⟩
    .ofCompleted group.1 0 (c.settle f.type) :: rootEntries methods setting work endings
  | (group, .call f _) :: work, endings =>
    let ending : Ending := endings.head?.getD ⟨0, .ok .null⟩
    .ofCompleted group.1 ending.round (completeRoot methods setting group f.field ending.result) ::
      rootEntries methods setting work endings.tail

/-- The data of an answer: the values of the root fields by their keys, or nothing if an error goes on to the root. -/
def dataOf (entries : List RootEntry) : Value :=
  match entries.mapM fun e => e.value.map fun v => (e.key, v) with
  | some values => Value.record values
  | none => .null

/-- The errors of root fields in the order in which they come up: round by round, and in the order of the fields
within a round. -/
def errorsOf (entries : List RootEntry) : List FieldError :=
  (entries.mergeSort fun a b => a.round ≤ b.round).flatMap RootEntry.errors

/-! ### Requests -/

/-- The operation that is to be run: the one of a name, or the only one. -/
def chosenOperation (d : Document) (name : Option String) : Except String Operation :=
  match name, d.operations with
  | some name, ops =>
    match ops.find? fun op => op.name.any (·.text = name) with
    | some op => .ok op
    | none => .error ("Unknown operation named '" ++ name ++ "'.")
  | none, [op] => .ok op
  | none, [] => .error "Must provide an operation."
  | none, _ => .error "Must provide operation name if query contains multiple operations."

/-- Runs an operation whose variables have been read and whose fields of the root have been selected. -/
def runFields (s : Schema) (env : Environment) (setting : Setting) (fields : List SelectedField) : Response :=
  let work := rootWork s setting.bindings (groupsOf fields)
  let (trace, endings) := Service.runAll (tasksOf env setting.context work)
  let entries := rootEntries env.methods setting work endings
  .answered (dataOf entries) (errorsOf entries) trace

/-- Runs an operation whose variables have been read. -/
def runOperation (s : Schema) (env : Environment) (setting : Setting) : Response :=
  if setting.operation.kind = .query then
    match setting.within Schema.rootName setting.operation.selections with
    | .ok fields => runFields s env setting fields
    | .error message => .refused (.undecided message)
  else .refused (.noRoot setting.operation.kind)

/-- Answers a request that has been parsed; `name` says which operation is to be run, if it is given. -/
def answer (s : Schema) (env : Environment) (d : Document) (name : Option String) (given : List (String × Value))
    (context : Value) : Response :=
  match requestFaults s.known d with
  | [] =>
    match chosenOperation d name with
    | .error message => .refused (.noOperation message)
    | .ok op =>
      let (bindings, findings) := readVariables s.known given op.parameters
      match variableReport maxVariableFaults findings with
      | .ok [] => runOperation s env ⟨s.known, d, op, bindings, context⟩
      | .ok faults => .refused (.badVariables faults)
      | .error b => .brokenOff b
  | faults => .refused (.faults (reportedFaults faults))

/-- Answers a request; `name` says which of its operations is to be run, if it is given. -/
def execute (s : Schema) (env : Environment) (request : String) (name : Option String) (given : List (String × Value))
    (context : Value) : Response :=
  match Request.parseDocument request with
  | .error e => .refused (.malformed e)
  | .ok d => answer s env d name given context

/-- Executes a request with all fields of the schema read again in the session. -/
def executeAnew (schema : Schema) (env : Environment) (request : String) (name : Option String)
    (given : List (String × Value)) (context : Value) : Graph.Work Graph.FieldsError Response := do
  let types ← Schema.retell schema.types
  return execute { schema with types } env request name given context

end ThriftGateway.Execution
