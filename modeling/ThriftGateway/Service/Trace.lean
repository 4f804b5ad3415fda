import ThriftGateway.Failure
import ThriftGateway.Service.Callable

/-!
# What has been run

What is recorded of the runs of clients and hooks, and the errors that a call can end with.
-/

namespace ThriftGateway.Service

/-- Whether a hook is for all methods or for one. -/
inductive Scope where
  | all
  | method
  deriving DecidableEq, Repr

/-- What has been run, with what it was told and given. -/
inductive TraceEntry where
  | call (service : Value) (method : String) (request : Value)
  | onRequest (scope : Scope) (info : CallInfo) (value : Value)
  | onResponse (scope : Scope) (info : ReplyInfo) (value : Value)
  deriving Repr

/-- Why a call fails. -/
inductive CallError where
  | noClient (service method : String)
  | noService (service method : String)
  | noMethod (service method : String)
  | raised (error : Raised)
  /-- An argument has a name that the call itself needs. -/
  | nameTaken (argument : String)
  deriving DecidableEq, Repr

/-- The failure that the lack of a way to call a method is. -/
def CallError.failure? : CallError → Option Failure
  | noClient s m => some (.ofMethod s m "No RPC client configured")
  | noService s m => some (.ofMethod s m ("RPC client has no service " ++ s))
  | noMethod s m => some (.ofMethod s m "")
  | _ => none

/-- The words for an error. -/
def CallError.message (e : CallError) : String :=
  match e with
  | raised r => r.message
  | nameTaken argument =>
    "OperationInvoker.bind.<locals>.resolve() got multiple values for argument '" ++ argument ++ "'"
  | e => (e.failure?.map Failure.message).getD ""

end ThriftGateway.Service
