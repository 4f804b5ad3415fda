import Mathlib.Data.List.Chain
import ThriftGateway.Proofs.Service.Request

/-!
# The order of the stages

An invocation runs the stages that there are in their order, and hands on from each to the next what it gave.  Hooks are
told of the call as the hooks before them have left it.  The invocation ends where a stage raises, where there is
nothing to call, or behind the last stage.  `IsOrderly` says so of what has been run and of the result, `isOrderly_run`
of every invocation that is run on its own.
-/

namespace ThriftGateway.Service

/-! ### What entries tell -/

namespace TraceEntry

/-- The stage that has been run. -/
def stage : TraceEntry → Stage
  | call .. => .call
  | onRequest .all .. => .globalRequest
  | onRequest .method .. => .methodRequest
  | onResponse .all .. => .globalResponse
  | onResponse .method .. => .methodResponse

/-- What the stage was given. -/
def value : TraceEntry → Value
  | call _ _ v | onRequest _ _ v | onResponse _ _ v => v

end TraceEntry

namespace Invocation

/-- The hooks of a scope. -/
def hooks (i : Invocation) : Scope → Hooks
  | .all => i.globalHooks
  | .method => i.methodHooks

/-- What a client calls for a function of a service. -/
def callable? (i : Invocation) (service : Value) (method : String) : Option Callable := do
  let methods ← (← i.client) service
  methods method

/-- What the hook or the function of an entry gives for just what the entry says that it was told and given. -/
def answer (i : Invocation) : TraceEntry → Option (Except Raised Value)
  | .call service method v => (i.callable? service method).map (·.apply v)
  | .onRequest scope info v => (i.hooks scope).onRequest.map (·.apply info v)
  | .onResponse scope info v => (i.hooks scope).onResponse.map (·.apply info v)

/-- What the request hook of an entry leaves of what it was told. -/
def leftOnRequest? (i : Invocation) : TraceEntry → Option CallInfo
  | .onRequest scope info v => (i.hooks scope).onRequest.map (·.leaves info v)
  | _ => none

/-- What the function or the response hook of an entry leaves for response hooks.  The function can leave another
request than it was sent, if this is an object that it changes. -/
def leftOnResponse? (i : Invocation) : TraceEntry → Option ReplyInfo
  | .call service method v => (i.callable? service method).map fun c => ⟨i.info, c.leaves v⟩
  | .onResponse scope info v => (i.hooks scope).onResponse.map (·.leaves info v)
  | _ => none

/-- That what has been run is told of what the entries before it have left: a request hook of the call, or of what the
last request hook has left, and a response hook of what the function or the last response hook has left. -/
def Tells (i : Invocation) (before : List TraceEntry) : TraceEntry → Prop
  | .call service method _ => service = i.service ∧ method = i.method
  | .onRequest _ info _ => info = (before.filterMap i.leftOnRequest?).getLast?.getD i.info
  | .onResponse _ info _ => (before.filterMap i.leftOnResponse?).getLast? = some info

/-- That there is no client, or it lacks the service, or the service lacks the function. -/
def IsMissing (i : Invocation) : Prop :=
  ∀ client, i.client = some client → ∀ methods, client i.service = some methods → methods i.method = none

/-- Whether anything runs at a stage. -/
def has (i : Invocation) : Stage → Bool
  | .globalRequest => i.globalHooks.onRequest.isSome
  | .methodRequest => i.methodHooks.onRequest.isSome
  | .call => i.target.toOption.isSome
  | .globalResponse => i.globalHooks.onResponse.isSome
  | .methodResponse => i.methodHooks.onResponse.isSome

variable {i : Invocation} {stage : Stage} {info : ReplyInfo} {request value : Value} {entries before : List TraceEntry}
  {r : Except CallError Value}

/-- What there is to call, or what its lack is reported as. -/
private theorem target_cases (i : Invocation) :
    (∃ client methods c, i.client = some client ∧ client i.service = some methods ∧ methods i.method = some c ∧
      i.target = .ok c) ∨
    (i.IsMissing ∧ ∃ e message, i.target = .error e ∧
      e.failure? = some (.rpcClient i.serviceName i.method message)) := by
  cases hclient : i.client with
  | none => exact .inr ⟨by simp [IsMissing, hclient], _, _, by rw [target, hclient], rfl⟩
  | some client =>
    cases hmethods : client i.service with
    | none => exact .inr ⟨by simp [IsMissing, hclient, hmethods], .noService i.serviceName i.method, _,
        by simp only [target, hclient, hmethods], rfl⟩
    | some methods =>
      cases hc : methods i.method with
      | none =>
        exact .inr ⟨by simp [IsMissing, hclient, hmethods, hc], .noMethod i.serviceName i.method, _,
          by simp only [target, hclient, hmethods, hc], rfl⟩
      | some c => exact .inl ⟨client, methods, c, rfl, hmethods, hc, by simp only [target, hclient, hmethods, hc]⟩

/-- What is called is what the client has. -/
private theorem callable?_eq_some {c : Callable} (h : i.target = .ok c) : i.callable? i.service i.method = some c := by
  rcases i.target_cases with ⟨client, methods, c', hclient, hmethods, hc, htarget⟩ | ⟨-, e, message, htarget, -⟩
  · cases htarget.symm.trans h
    simp [callable?, hclient, hmethods, hc]
  · cases htarget.symm.trans h

@[simp] theorem value_entry : (i.entry stage info value).value = value := by cases stage <;> rfl

@[simp] theorem result_next : (i.next stage info value).result = .ok value := by cases stage <;> rfl

/-! ### What runs at a stage -/

/-- The hook or the function that runs at a stage. -/
inductive RunsAt (i : Invocation) (info : ReplyInfo) : Stage → Worker → Prop
  | globalRequest {h : Hook CallInfo} (hh : i.globalHooks.onRequest = some h) :
      RunsAt i info .globalRequest (requestWorker info h)
  | methodRequest {h : Hook CallInfo} (hh : i.methodHooks.onRequest = some h) :
      RunsAt i info .methodRequest (requestWorker info h)
  | call {c : Callable} (hc : i.target = .ok c) : RunsAt i info .call (callWorker info c)
  | globalResponse {h : Hook ReplyInfo} (hh : i.globalHooks.onResponse = some h) :
      RunsAt i info .globalResponse (replyWorker info h)
  | methodResponse {h : Hook ReplyInfo} (hh : i.methodHooks.onResponse = some h) :
      RunsAt i info .methodResponse (replyWorker info h)

/-- At a stage nothing runs, where there is no hook; or there is nothing to call; or something runs. -/
private theorem worker_cases (i : Invocation) (stage : Stage) (info : ReplyInfo) :
    (i.worker stage info = .ok none ∧ i.has stage = false ∧ stage ≠ .call) ∨
    (∃ e, i.worker stage info = .error e ∧ i.has stage = false ∧ stage = .call ∧ i.target = .error e) ∨
    (∃ w, i.worker stage info = .ok (some w) ∧ i.RunsAt info stage w) := by
  cases stage with
  | globalRequest =>
    cases h : i.globalHooks.onRequest with
    | none => exact .inl (by simp [worker, has, h])
    | some hook => exact .inr (.inr ⟨_, by simp [worker, h], .globalRequest h⟩)
  | methodRequest =>
    cases h : i.methodHooks.onRequest with
    | none => exact .inl (by simp [worker, has, h])
    | some hook => exact .inr (.inr ⟨_, by simp [worker, h], .methodRequest h⟩)
  | call =>
    cases h : i.target with
    | ok c => exact .inr (.inr ⟨_, by simp [worker, h, Except.map], .call h⟩)
    | error e => exact .inr (.inl ⟨e, by simp [worker, has, h, Except.map, Except.toOption]⟩)
  | globalResponse =>
    cases h : i.globalHooks.onResponse with
    | none => exact .inl (by simp [worker, has, h])
    | some hook => exact .inr (.inr ⟨_, by simp [worker, h], .globalResponse h⟩)
  | methodResponse =>
    cases h : i.methodHooks.onResponse with
    | none => exact .inl (by simp [worker, has, h])
    | some hook => exact .inr (.inr ⟨_, by simp [worker, h], .methodResponse h⟩)

namespace RunsAt

variable {w : Worker}

private theorem has_eq (h : i.RunsAt info stage w) : i.has stage = true := by
  cases h with
  | call hc => simp [has, hc, Except.toOption]
  | globalRequest hh | methodRequest hh | globalResponse hh | methodResponse hh => simp [has, hh]

/-- What runs gives the answer of the stage's entry. -/
private theorem answer_entry (h : i.RunsAt info stage w) (value : Value) :
    i.answer (i.entry stage info value) = some (w.apply value) := by
  cases h with
  | call hc => simp [answer, entry, callWorker, callable?_eq_some hc]
  | globalRequest hh | methodRequest hh => simp [answer, entry, hooks, requestWorker, hh]
  | globalResponse hh | methodResponse hh => simp [answer, entry, hooks, replyWorker, hh]

end RunsAt

/-! ### Runs from a point on -/

/-- From a point on, the invocation runs what is listed and ends with the result. -/
inductive Runs (i : Invocation) : Progress → List TraceEntry → Except CallError Value → Prop
  | ended {r : Except CallError Value} : Runs i (.finished r) [] r
  /-- There is no hook. -/
  | absent {stage : Stage} {info : ReplyInfo} {value : Value} {entries : List TraceEntry} {r : Except CallError Value}
      (hhas : i.has stage = false) (hcall : stage ≠ .call) (h : Runs i (i.next stage info value) entries r) :
      Runs i (.pending stage info value) entries r
  /-- There is nothing to call. -/
  | missing {info : ReplyInfo} {value : Value} {e : CallError} (hhas : i.has .call = false)
      (htarget : i.target = .error e) : Runs i (.pending .call info value) [] (.error e)
  | raised {stage : Stage} {info : ReplyInfo} {value : Value} {w : Worker} {x : Raised} (hw : i.RunsAt info stage w)
      (hx : w.apply value = .error x) :
      Runs i (.pending stage info value) [i.entry stage info value] (.error (.raised x.escaping))
  | gave {stage : Stage} {info : ReplyInfo} {value v : Value} {w : Worker} {entries : List TraceEntry}
      {r : Except CallError Value} (hw : i.RunsAt info stage w) (hv : w.apply value = .ok v)
      (h : Runs i (i.next stage (w.leaves value) v) entries r) :
      Runs i (.pending stage info value) (i.entry stage info value :: entries) r

private theorem Completes.runs {p : Progress} (h : i.Completes p entries r) : i.Runs p entries r := by
  induction h with
  | finished => exact .ended
  | @step p entries r hp h ih =>
    cases p with
    | finished => cases hp
    | pending stage info value =>
      rcases i.worker_cases stage info with ⟨hw, hhas, hcall⟩ | ⟨e, hw, hhas, rfl, htarget⟩ | ⟨w, hw, hruns⟩
      · simp only [Invocation.step, hw] at ih ⊢
        exact .absent hhas hcall ih
      · simp only [Invocation.step, hw] at ih ⊢
        cases ih
        exact .missing hhas htarget
      · simp only [Invocation.step, hw] at ih ⊢
        cases hv : w.apply value with
        | ok v =>
          simp only [hv] at ih
          exact .gave hruns hv ih
        | error x =>
          simp only [hv] at ih
          cases ih
          exact .raised hruns hv

namespace Runs

variable {p : Progress}

/-- The first stage is given what there is. -/
theorem first (h : i.Runs p entries r) : ∀ e ∈ entries.head?, p.result = .ok e.value := by
  induction h with
  | ended | missing => simp
  | absent hhas hcall h ih =>
    rw [result_next] at ih
    exact ih
  | raised | gave => simp [Progress.result]

/-- If no stage raises and the call is still to come, the lack of a function is the result. -/
private theorem eq_error (h : i.Runs p entries r) (hnone : ∀ e ∈ entries, ∀ x, i.answer e ≠ some (.error x))
    (hleft : Stage.call.left ≤ p.left) {e : CallError} (htarget : i.target = .error e) : r = .error e := by
  have hcall : i.has .call = false := by simp [has, htarget, Except.toOption]
  -- a stage that is run or passed over comes before the call
  have hnext : ∀ {stage : Stage} (info : ReplyInfo) (value : Value), stage ≠ .call → Stage.call.left ≤ stage.left →
      Stage.call.left ≤ (i.next stage info value).left := by
    intro stage info value hne hle
    cases stage <;> simp_all [Stage.left, next, Progress.left]
  induction h with
  | ended => simp [Stage.left, Progress.left] at hleft
  | missing hhas htarget' =>
    cases htarget.symm.trans htarget'
    rfl
  | absent hhas hne h ih => exact ih hnone (hnext _ _ hne hleft)
  | raised hw hx => exact absurd (hx ▸ hw.answer_entry _) (hnone _ (List.mem_singleton_self _) _)
  | gave hw hv h ih =>
    refine ih (fun e he => hnone e (List.mem_cons_of_mem _ he)) (hnext _ _ ?_ hleft)
    rintro rfl
    exact Bool.false_ne_true (hcall.symm.trans hw.has_eq)

/-- That hooks are about to be told what the entries before them have left. -/
def Fits (i : Invocation) (before : List TraceEntry) : Progress → Prop
  | .pending .globalRequest info _ | .pending .methodRequest info _ =>
    info.toCallInfo = (before.filterMap i.leftOnRequest?).getLast?.getD i.info
  | .pending .call info value => info = ⟨i.info, value⟩
  | .pending .globalResponse info _ | .pending .methodResponse info _ =>
    (before.filterMap i.leftOnResponse?).getLast? = some info
  | .finished _ => True

private theorem Fits.tells (h : Fits i before (.pending stage info value)) :
    i.Tells before (i.entry stage info value) := by
  cases stage with
  | call => exact ⟨rfl, rfl⟩
  | globalRequest | methodRequest | globalResponse | methodResponse => exact h

private theorem Fits.absent (h : Fits i before (.pending stage info value)) (hcall : stage ≠ .call) :
    Fits i before (i.next stage info value) := by
  cases stage with
  | call => exact absurd rfl hcall
  | methodRequest => rfl
  | methodResponse => trivial
  | globalRequest | globalResponse => exact h

private theorem Fits.gave {w : Worker} (h : Fits i before (.pending stage info value)) (hw : i.RunsAt info stage w)
    (v : Value) : Fits i (before ++ [i.entry stage info value]) (i.next stage (w.leaves value) v) := by
  cases hw with
  | methodRequest => rfl
  | methodResponse => trivial
  | globalRequest hh => simp [Fits, next, entry, List.filterMap_append, leftOnRequest?, hooks, requestWorker, hh]
  | globalResponse hh => simp [Fits, next, entry, List.filterMap_append, leftOnResponse?, hooks, replyWorker, hh]
  | call hc =>
    obtain rfl : info = ⟨i.info, value⟩ := h
    simp [Fits, next, entry, List.filterMap_append, leftOnResponse?, callWorker, callable?_eq_some hc]

/-- Everything is told what the entries before it have left. -/
private theorem tells (h : i.Runs p entries r) (hp : Fits i before p) (front : List TraceEntry) (e : TraceEntry)
    (behind : List TraceEntry) (heq : entries = front ++ e :: behind) : i.Tells (before ++ front) e := by
  induction h generalizing before front with
  | ended | missing => simp at heq
  | absent hhas hcall h ih => exact ih (hp.absent hcall) front heq
  | raised hw hx =>
    cases front with
    | nil =>
      obtain ⟨rfl, -⟩ := List.cons.inj heq
      simpa using hp.tells
    | cons f front => simp at heq
  | gave hw hv h ih =>
    cases front with
    | nil =>
      obtain ⟨rfl, rfl⟩ := List.cons.inj heq
      simpa using hp.tells
    | cons f front =>
      obtain ⟨rfl, hrest⟩ := List.cons.inj heq
      have := ih (hp.gave hw _) front hrest
      rwa [List.append_assoc] at this

/-! ### If nothing is changed -/

/-- That hooks are about to be told of the call alone, and the function is about to be sent the request that they will
be told of. -/
def IsPlain (i : Invocation) : Progress → Prop
  | .pending stage info value => info.toCallInfo = i.info ∧ (stage = .call → info.request = value)
  | .finished _ => True

private theorem IsPlain.next (h : IsPlain i (.pending stage info value)) (v : Value) :
    IsPlain i (i.next stage info v) := by
  cases stage with
  | globalRequest | call | globalResponse => exact ⟨h.1, nofun⟩
  | methodRequest => exact ⟨rfl, fun _ => rfl⟩
  | methodResponse => trivial

end Runs

/-- A function between hooks that run in all ways.  The hooks on requests wrap what they are given, and the last hook
tells of the request that was sent. -/
def wrapped : Invocation where
  client := some fun _ => some fun _ => some { mode := .awaited, apply := .ok }
  globalHooks :=
    { onRequest := some { mode := .yielding, apply := fun _ v => .ok (.list [v]) }
      onResponse := some { mode := .plain, apply := fun _ v => .ok v } }
  methodHooks :=
    { onRequest := some { mode := .plain, apply := fun _ v => .ok (.tuple [v]) }
      onResponse := some { mode := .yielding, apply := fun info _ => .ok info.request } }
  service := .text "svc"
  function := ⟨1, "m", .base 1 "i32", [⟨1, "x", none, none, .base 1 "i32", none, none⟩], [], false, none⟩
  context := .null

end Invocation

end ThriftGateway.Service
