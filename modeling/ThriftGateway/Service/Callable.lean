import ThriftGateway.Value.Basic

/-!
# Clients and hooks

What calls a service and what runs around a call.  A callable is a function of its input, a hook also of what it is
told of the call; each may give way to other work before it runs.  Both may change objects that others see too: a hook
what it is told, and a function the request that it is sent.
-/

namespace ThriftGateway.Service

/-- An error that a callable raises: its kind and its message.  Errors of kinds derived from `StopIteration` go by that
name. -/
structure Raised where
  kind : String
  message : String
  deriving DecidableEq, Repr

/-- The error that comes out of a coroutine in which an error is raised: the same, but for the one that would end an
iteration. -/
def Raised.escaping (e : Raised) : Raised :=
  if e.kind = "StopIteration" then ⟨"RuntimeError", "coroutine raised StopIteration"⟩ else e

/-- How a callable runs. -/
inductive Mode where
  /-- It gives its result at once. -/
  | plain
  /-- It is waited for, but does not give way. -/
  | awaited
  /-- It gives way once and then runs. -/
  | yielding
  deriving DecidableEq, Repr

/-- A function of its input, such as one of a client. -/
structure Callable where
  mode : Mode
  apply : Value → Except Raised Value
  /-- What it leaves of its input, an object that others may see too. -/
  leaves : Value → Value := id

/-- What hooks on requests are told of the call that they run for, in one object for all of them. -/
structure CallInfo where
  context : Value
  service : Value
  method : Value
  /-- Further attributes, which only hooks can have given the object. -/
  others : List (String × Value) := []
  deriving Repr

/-- What hooks on responses are told: also the request as it was sent. -/
structure ReplyInfo extends CallInfo where
  request : Value
  deriving Repr

/-- A function of a value that is told of the call it runs for. -/
structure Hook (Info : Type) where
  mode : Mode
  apply : Info → Value → Except Raised Value
  /-- What it leaves of what it is told, given a value: whatever it has changed there. -/
  leaves : Info → Value → Info := fun info _ => info

/-- A function of a value is a hook that makes nothing of what it is told. -/
instance {Info : Type} : Coe (Option Callable) (Option (Hook Info)) :=
  ⟨Option.map fun c => { mode := c.mode, apply := fun _ => c.apply }⟩

/-- Hooks on requests and responses. -/
structure Hooks where
  onRequest : Option (Hook CallInfo) := none
  onResponse : Option (Hook ReplyInfo) := none

/-- The functions of the services that can be called. -/
abbrev Client := (service : Value) → Option ((method : String) → Option Callable)

end ThriftGateway.Service
