import ThriftGateway.Schema.Check

/-!
# Assembling a schema

The functions of the offered services become the root fields, and the session is sealed once the schema has been
checked.
-/

namespace ThriftGateway.Schema

open Graph (CompileError ExpansionError FieldsError NameError QueryNaming Session Work checkName compileFunction)
open Service (Hooks)
open Source (Path)

/-- A service to offer. -/
structure Offer where
  /-- The name that callers know the service by. -/
  name : Value
  file : Path
  service : Idl.Service
  /-- Only the listed methods are offered. -/
  strict : Bool
  /-- The listed methods with their hooks. -/
  methods : List (Value × Hooks)

/-- Whether a method is listed. -/
def Offer.lists (o : Offer) (method : String) : Bool := o.methods.any fun e => Value.same (.text method) e.1

/-- The hooks of a method; a method that is not listed has none. -/
def Offer.hooks (o : Offer) (method : String) : Hooks :=
  ((o.methods.find? fun e => Value.same (.text method) e.1).map Prod.snd).getD {}

/-- Whether a function is offered. -/
def Offer.offers (o : Offer) (f : Idl.Function) : Bool := !o.strict || o.lists f.name

/-- Why no schema can be assembled. -/
inductive AssemblyError where
  | compile (error : CompileError)
  /-- The fields of a type cannot be told, because of the graph itself or a name in it. -/
  | fields (typeName : String) (cause : CompileError)
  | name (error : NameError)
  | repeatedType (name : String)
  | invalid (faults : List Fault)
  deriving Repr

/-- A reference that means nothing, or a node without a type, is reported as it is, wherever it is met.  That an
include leads nowhere is reported of the type that needs it. -/
def AssemblyError.ofFields : FieldsError → AssemblyError
  | .unresolved typeName (.expansion (.reference .impassable)) => .fields typeName (.expansion (.reference .impassable))
  | .unresolved _ (.expansion e) => .compile (.expansion e)
  | .unresolved typeName cause => .fields typeName cause
  | .name e => .name e

/-- Adds the root field for a function.  One of the same name is replaced. -/
def addRootField (naming : QueryNaming) (o : Offer) (fields : List RootField) (f : Idl.Function) :
    Work CompileError (List RootField) := do
  if !o.offers f then
    modify fun s => s.report (.notListed o.name.nameText f.name)
    return fields
  let query := naming o.service.name f.name
  if fields.any (·.field.name = query) then
    modify fun s => s.report (.duplicateQuery query o.name.nameText f.name)
  let field ← compileFunction o.file f
  return Graph.upsert (·.field.name) ⟨{ field with name := query }, ⟨o.name, f, o.hooks f.name⟩⟩ fields

/-- Adds the root fields for functions. -/
def addRootFields (naming : QueryNaming) : List (Offer × Idl.Function) → List RootField →
    Work CompileError (List RootField)
  | [], fields => return fields
  | (o, f) :: rest, fields => do addRootFields naming rest (← addRootField naming o fields f)

/-- The functions of all services with the offers they belong to. -/
def offeredFunctions (offers : List Offer) : List (Offer × Idl.Function) :=
  offers.flatMap fun o => o.service.functions.map fun f => (o, f)

/-- The root fields of the offered services. -/
def rootFields (naming : QueryNaming) (offers : List Offer) : Work CompileError (List RootField) :=
  addRootFields naming (offeredFunctions offers) []

/-- Assembles the schema of the offered services and seals the session. -/
def assemble (naming : QueryNaming) (offers : List Offer) : Work AssemblyError Schema := do
  let root ← ExceptT.adapt AssemblyError.compile (rootFields naming offers)
  Work.ofExcept .name (Graph.checkAll checkName (root.map (·.field.name)))
  let references := outputReferences (root.map RootField.field)
  let types ← ExceptT.adapt AssemblyError.ofFields (collectTypes (typeBound (← get)) [] references)
  let schema : Schema := ⟨root, types⟩
  if let some name := firstRepeated [] (schema.definitions.map Definition.name ++ Graph.describingNames) then
    throw (.repeatedType name)
  Work.ofExcept .name (Graph.checkAll Graph.checkMemberName schema.memberNames)
  let faults := schema.faults
  if !faults.isEmpty then throw (.invalid faults)
  modify Session.close
  return schema

end ThriftGateway.Schema
