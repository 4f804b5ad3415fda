import ThriftGateway.Graph.Compile
import ThriftGateway.Graph.Output
import ThriftGateway.Service.Callable

/-!
# Schemas

A schema is the root type, whose fields call functions of services, and all types that can be reached from it, in
the order in which they are first met.
-/

namespace ThriftGateway.Schema

open Graph (EnumMember GraphType InputField NamedType OutputField Scalar)
open Service (Hooks)

/-- The function of a service that a root field calls, and the hooks that run around this call alone. -/
structure Binding where
  /-- The name that callers know the service by. -/
  service : Value
  function : Idl.Function
  hooks : Hooks

/-- A field of the root type. -/
structure RootField where
  field : OutputField
  binding : Binding

/-- The name of the root type. -/
def rootName : String := "Query"

/-- What clients are told about the root type. -/
def rootDescription : String := "The root query"

/-- What a type of the schema is. -/
inductive Definition where
  | scalar (s : Scalar)
  | object (name : String) (description : Option String) (fields : List OutputField)
  | input (name : String) (description : Option String) (fields : List InputField)
  | enumeration (name : String) (description : Option String) (members : List EnumMember)
  deriving Repr

/-- The name of a type. -/
def Definition.name : Definition → String
  | scalar s => s.name
  | object name .. | input name .. | enumeration name .. => name

/-- The fields of the root type, and all other types, which are found by what refers to them. -/
structure TypeSystem where
  root : List OutputField
  types : List (NamedType × Definition)

namespace TypeSystem

variable (s : TypeSystem)

/-- The root type. -/
def rootDefinition : Definition := .object rootName (some rootDescription) s.root

/-- All types, the root first. -/
def definitions : List Definition := s.rootDefinition :: s.types.map (·.2)

/-- The type that is referred to. -/
def definition? (t : NamedType) : Option Definition := (s.types.find? (·.1 = t)).map (·.2)

/-- The name of the type that is referred to. -/
def nameOf (t : NamedType) : String :=
  match s.definition? t with
  | some d => d.name
  | none =>
    match t with
    | .scalar scalar => scalar.name
    | .node _ => ""

/-- The written form of a type. -/
def written (t : GraphType) : String := t.written s.nameOf

end TypeSystem

/-- A schema: types, and what the fields of the root call. -/
structure Schema where
  root : List RootField
  types : List (NamedType × Definition)

namespace Schema

variable (s : Schema)

/-- The types, without what the root fields call. -/
def system : TypeSystem := ⟨s.root.map RootField.field, s.types⟩

/-- All types, the root first. -/
def definitions : List Definition := s.system.definitions

/-- The type that is referred to. -/
def definition? (t : NamedType) : Option Definition := s.system.definition? t

/-- The root field of a name. -/
def rootField? (name : String) : Option RootField := s.root.find? (·.field.name = name)

end Schema

end ThriftGateway.Schema
