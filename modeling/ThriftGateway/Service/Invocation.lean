import ThriftGateway.Service.Trace

/-!
# Invocations

An invocation calls one function of a service.  Its stages are the request hooks, the call and the response hooks,
those for all methods before those for the one method.  Each stage is given what the one before it gave, and the
first error ends the invocation.  The request hooks are told of the call in one object and the response hooks in
another, so what a hook changes there, the next one is told.  `Invocation.turn` runs stages up to the next one that
gives way.
-/

namespace ThriftGateway.Service

/-- A function with everything that is needed to call it. -/
structure Invocation where
  client : Option Client
  globalHooks : Hooks
  methodHooks : Hooks
  service : Value
  function : Idl.Function
  context : Value

/-- The stages of an invocation, in order. -/
inductive Stage where
  | globalRequest
  | methodRequest
  | call
  | globalResponse
  | methodResponse
  deriving DecidableEq, Repr

/-- How many stages there are. -/
def Stage.count : Nat := 5

/-- Where an invocation stands. -/
inductive Progress where
  /-- The next stage, what hooks are told, with the request as it was sent, and the value that the stage is given. -/
  | pending (stage : Stage) (info : ReplyInfo) (value : Value)
  | finished (result : Except CallError Value)

/-- Whether nothing is left to run. -/
def Progress.isOver : Progress → Bool
  | finished _ => true
  | pending .. => false

/-- The request that arguments make: the value of the only argument, or all arguments by name. -/
def requestOf (f : Idl.Function) (arguments : List (String × Value)) : Value :=
  match f.arguments with
  | [a] => (arguments.lookup a.name).getD .null
  | _ => Value.record arguments

/-- Names that the call itself needs. -/
def callNames : List String := ["source", "info"]

namespace Invocation

variable (i : Invocation)

/-- The name of the service in messages. -/
def serviceName : String := i.service.nameText

/-- The name of the method. -/
def method : String := i.function.name

/-- What calls the function. -/
def target : Except CallError Callable :=
  match i.client with
  | none => .error (.noClient i.serviceName i.method)
  | some client =>
    match client i.service with
    | none => .error (.noService i.serviceName i.method)
    | some methods =>
      match methods i.method with
      | none => .error (.noMethod i.serviceName i.method)
      | some c => .ok c

/-- What hooks are told of the call, if none of them changes it. -/
def info : CallInfo := { context := i.context, service := i.service, method := .text i.method }

/-- Where the invocation with the given arguments begins. -/
def start (arguments : List (String × Value)) : Progress :=
  match arguments.find? fun a => callNames.contains a.1 with
  | some a => .finished (.error (.nameTaken a.1))
  | none =>
    let request := requestOf i.function arguments
    .pending .globalRequest ⟨i.info, request⟩ request

/-- What stands behind a stage that gave a value and left something of what hooks are told.  Once the request is there,
hooks are told of the call afresh. -/
def next (stage : Stage) (info : ReplyInfo) (value : Value) : Progress :=
  match stage with
  | .globalRequest => .pending .methodRequest info value
  | .methodRequest => .pending .call ⟨i.info, value⟩ value
  | .call => .pending .globalResponse info value
  | .globalResponse => .pending .methodResponse info value
  | .methodResponse => .finished (.ok value)

/-- What runs at a stage, and what it leaves of what hooks are told. -/
structure Worker where
  mode : Mode
  apply : Value → Except Raised Value
  leaves : Value → ReplyInfo

/-- A hook on requests at its stage. -/
def requestWorker (info : ReplyInfo) (h : Hook CallInfo) : Worker where
  mode := h.mode
  apply := h.apply info.toCallInfo
  leaves value := { info with toCallInfo := h.leaves info.toCallInfo value }

/-- The call at its stage. -/
def callWorker (info : ReplyInfo) (c : Callable) : Worker where
  mode := c.mode
  apply := c.apply
  leaves value := { info with request := c.leaves value }

/-- A hook on responses at its stage. -/
def replyWorker (info : ReplyInfo) (h : Hook ReplyInfo) : Worker where
  mode := h.mode
  apply := h.apply info
  leaves := h.leaves info

/-- What runs at a stage, if anything does. -/
def worker (stage : Stage) (info : ReplyInfo) : Except CallError (Option Worker) :=
  match stage with
  | .globalRequest => .ok (i.globalHooks.onRequest.map (requestWorker info))
  | .methodRequest => .ok (i.methodHooks.onRequest.map (requestWorker info))
  | .call => i.target.map fun c => some (callWorker info c)
  | .globalResponse => .ok (i.globalHooks.onResponse.map (replyWorker info))
  | .methodResponse => .ok (i.methodHooks.onResponse.map (replyWorker info))

/-- The trace of running a stage. -/
def entry (stage : Stage) (info : ReplyInfo) (value : Value) : TraceEntry :=
  match stage with
  | .globalRequest => .onRequest .all info.toCallInfo value
  | .methodRequest => .onRequest .method info.toCallInfo value
  | .call => .call i.service i.method value
  | .globalResponse => .onResponse .all info value
  | .methodResponse => .onResponse .method info value

/-- Runs the next stage.  All stages run in a coroutine. -/
def step : Progress → List TraceEntry × Progress
  | .finished r => ([], .finished r)
  | .pending stage info value =>
    match i.worker stage info with
    | .error e => ([], .finished (.error e))
    | .ok none => ([], i.next stage info value)
    | .ok (some w) =>
      let next := match w.apply value with
        | .ok v => i.next stage (w.leaves value) v
        | .error e => .finished (.error (.raised e.escaping))
      ([i.entry stage info value], next)

/-- Whether the next stage gives way before it runs. -/
def givesWay : Progress → Bool
  | .finished _ => false
  | .pending stage info _ =>
    match i.worker stage info with
    | .ok (some w) => w.mode = .yielding
    | _ => false

/-- Runs stages up to the next one that gives way.  `resumed` says that the first one has done so already, and
`fuel` bounds how many are run. -/
def turn : (fuel : Nat) → (resumed : Bool) → Progress → List TraceEntry × Progress
  | 0, _, p => ([], p)
  | fuel + 1, resumed, p =>
    if i.givesWay p && !resumed then ([], p)
    else
      let (entries, p) := i.step p
      let (more, p) := turn fuel false p
      (entries ++ more, p)

end Invocation

/-- What an invocation has given so far. -/
def Progress.result : Progress → Except CallError Value
  | finished r => r
  | pending _ _ value => .ok value

end ThriftGateway.Service
