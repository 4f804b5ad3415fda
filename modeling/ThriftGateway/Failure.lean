import ThriftGateway.Schema.DefaultLiteral
import ThriftGateway.Schema.Generation

/-!
# Failures as they are reported

The failures that this library names itself, each with what it reports beside its message.
-/

namespace ThriftGateway

open Idl (Issue Kind)
open Source (LoadError Path Reason ReferenceError)

/-- A failure with what is told about it. -/
inductive Failure where
  /-- A file is no document. -/
  | parse (path : String) (issues : List Issue)
  /-- A reference has more than one dot. -/
  | malformedIdentifier (identifier file : String)
  /-- A reference means nothing. -/
  | unresolvedIdentifier (identifier file reason : String)
  /-- An include leads nowhere. -/
  | impassable
  /-- There is no type for a node. -/
  | unsupportedNode (kind : String) (file : Option String)
  /-- A scalar refuses a value. -/
  | invalidScalar (message : String)
  /-- A file has no service. -/
  | serviceNotFound (file : String)
  /-- There is no way to call a method. -/
  | rpcClient (service method message : String)
  deriving DecidableEq, Repr

namespace Failure

/-- The words for a failure. -/
def message : Failure → String
  | parse path issues => "Failed to parse " ++ path ++ ": " ++ "; ".intercalate (issues.map Issue.text)
  | malformedIdentifier identifier file =>
    "Malformed identifier '" ++ identifier ++ "' in " ++ file ++ ": expected 'namespace.Name'"
  | unresolvedIdentifier identifier file reason =>
    "Cannot resolve '" ++ identifier ++ "' in " ++ file ++ ": " ++ reason
  | impassable => Source.FileError.nullCharacter.message
  | unsupportedNode kind file => "Unsupported node kind " ++ kind ++ file.elim "" fun f => " in " ++ f
  | invalidScalar message => message
  | serviceNotFound file => "No service declared in " ++ file
  | rpcClient _ _ message => message

/-- A scalar's refusal of a value; `message` may be empty. -/
def ofScalarValue (v : Value) (message : String) : Failure :=
  invalidScalar (if message = "" then "Invalid scalar value: " ++ v.display else message)

/-- The lack of a way to call a method; `message` may be empty. -/
def ofMethod (service method message : String) : Failure :=
  rpcClient service method (if message = "" then "No RPC client for " ++ service ++ "." ++ method else message)

/-- The failure of a reference. -/
def ofReference : ReferenceError → Failure
  | .malformed reference file => malformedIdentifier reference file.text
  | .unresolved reference file reason => unresolvedIdentifier reference file.text reason.text
  | .impassable => impassable

/-- The failure of a type expression. -/
def ofExpansion : Graph.ExpansionError → Failure
  | .reference e => ofReference e
  | .unsupported kind file => unsupportedNode (Kind.nameOf kind) (some file.text)

end Failure

namespace Graph

/-- The words for an error. -/
def CompileError.message : CompileError → String
  | .expansion e => (Failure.ofExpansion e).message
  | .numeral e => e.message
  | .name e => e.message
  | .sealedSession n file => "Compilation session is sealed, cannot create type for " ++ n ++ " in " ++ file.text
  | .reservedType n => "Redefinition of reserved type " ++ Text.quoted n

/-- The words for the lack of a type's fields. -/
def unresolvedFields (typeName : String) (cause : CompileError) : String :=
  typeName ++ " fields cannot be resolved. " ++ cause.message

end Graph

/-- The words for a type name that is there already. -/
def Schema.repeatedTypeMessage (name : String) : String :=
  "Schema must contain uniquely named types but contains multiple types named '" ++ name ++ "'."

/-- The words for what is wrong with a schema. -/
def Schema.faultsMessage (faults : List Schema.Fault) : String := "\n\n".intercalate (faults.map Schema.Fault.message)

/-- The words for a path that is no text. -/
def Schema.directoryMessage (v : Value) : String :=
  "expected str, bytes or os.PathLike object, not " ++ v.kindName

/-- The words for a file that is no text. -/
def Schema.fileMessage (v : Value) : String :=
  "unsupported operand type(s) for /: 'PosixPath' and '" ++ v.kindName ++ "'"

/-- The words for why a file is not loaded; `halves` are the stand-ins in its path. -/
def Source.LoadError.message (e : LoadError) (halves : Text.StandIns := {}) : String :=
  match e with
  | file e => e.message halves
  | invalid path issues => (Failure.parse path.text issues).message
  | numeralTooLong path => "A field number in " ++ path.text ++ " is too long"

/-- The words for why a schema cannot be put together. -/
def Schema.AssemblyError.message : Schema.AssemblyError → String
  | compile e => e.message
  | fields typeName cause => Graph.unresolvedFields typeName cause
  | name e => e.message
  | repeatedType typeName => repeatedTypeMessage typeName
  | invalid faults => faultsMessage faults

/-- The words for why a configuration gives no schema; `halves` are the stand-ins in the path of a file. -/
def Schema.GenerationError.message (e : Schema.GenerationError) (halves : Text.StandIns := {}) : String :=
  match e with
  | directoryNotText v => directoryMessage v
  | fileNotText v => fileMessage v
  | load e => e.message halves
  | noService file => (Failure.serviceNotFound file.text).message
  | assembly e => e.message

/-! ### Exceptions

The library raises its own failures, and others as general exceptions.  While the fields of a type are resolved, what is
raised gets wrapped in an exception that names the type; assembling unwraps a failure of the library. -/

/-- The kinds of exceptions that are no failures of the library. -/
inductive ExceptionKind where
  | type
  | value
  | runtime
  /-- What the library for graphs of types raises of names. -/
  | graph
  deriving DecidableEq, Repr

/-- What is raised. -/
inductive Raised where
  /-- A failure of the library. -/
  | own (failure : Failure)
  | general (kind : ExceptionKind) (message : String)
  /-- An exception that has another one as its cause. -/
  | wrapping (kind : ExceptionKind) (message : String) (cause : Raised)
  deriving DecidableEq, Repr

namespace Raised

/-- The chain of causes, the next one first. -/
def causes : Raised → List Raised
  | own _ | general .. => []
  | wrapping _ _ cause => cause :: cause.causes

/-- What is raised instead of an exception that schemas are built with: the failure of the library that is the cause of
a type error. -/
def unwrapped : Raised → Raised
  | wrapping .type _ (.own f) => .own f
  | raised => raised

end Raised

/-- What compiling raises.  That an include leads nowhere is no failure of the library. -/
def Graph.CompileError.raised : Graph.CompileError → Raised
  | .expansion (.reference .impassable) => .general .value (message (.expansion (.reference .impassable)))
  | .expansion e => .own (.ofExpansion e)
  | .numeral e => .general .value (message (.numeral e))
  | .name e => .general .graph (message (.name e))
  | .sealedSession n file => .general .runtime (message (.sealedSession n file))
  | .reservedType n => .general .type (message (.reservedType n))

/-- The kind of exception that wraps another one while the fields of a type are resolved. -/
def Raised.wrapper : Raised → ExceptionKind
  | .general .graph _ | .wrapping .graph _ _ => .graph
  | _ => .type

/-- What resolving the fields of a type raises. -/
def Graph.FieldsError.raised : Graph.FieldsError → Raised
  | .unresolved typeName cause =>
    .wrapping cause.raised.wrapper (Graph.unresolvedFields typeName cause) cause.raised
  | .name e => .general .graph e.message

/-- What assembling raises. -/
def Schema.AssemblyError.raised : Schema.AssemblyError → Raised
  | .compile e => e.raised
  | .fields typeName cause => (Graph.FieldsError.unresolved typeName cause).raised
  | .name e => .general .graph e.message
  | .repeatedType n => .general .type (Schema.repeatedTypeMessage n)
  | .invalid faults => .general .type (Schema.faultsMessage faults)

end ThriftGateway
