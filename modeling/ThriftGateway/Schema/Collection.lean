import ThriftGateway.Schema.Basic

/-!
# Collecting the types of a schema

Types are met depth first: the fields of a type in order, for each field first its own type, then the types of its
arguments.
-/

namespace ThriftGateway.Schema

open Graph (Fields FieldsError GraphType InputField NamedType Node OutputField Session Work nodeFields)

/-- The types that fields of an object refer to, in the order of meeting them. -/
def outputReferences (fields : List OutputField) : List NamedType :=
  fields.flatMap fun f => f.type.innermost :: f.arguments.map fun a => a.type.innermost

/-- The types that fields of an input object refer to. -/
def inputReferences (fields : List InputField) : List NamedType := fields.map fun f => f.type.innermost

/-- The types that a type refers to. -/
def Definition.references : Definition → List NamedType
  | .object _ _ fields => outputReferences fields
  | .input _ _ fields => inputReferences fields
  | .scalar _ | .enumeration .. => []

/-- What a node is in a schema. -/
def definitionOf : Node → Fields → Option Definition
  | .input name _ s, .input fields => some (.input name s.description fields)
  | .output name _ s, .output fields => some (.object name s.description fields)
  | .enumeration name members description, _ => some (.enumeration name description members)
  | _, _ => none

/-- What is referred to, with its fields compiled in the session.  The names of members are left for later. -/
def define (t : NamedType) : Work FieldsError (Option Definition) := do
  match t with
  | .scalar s => return some (.scalar s)
  | .node id =>
    match (← get).node? id with
    | none => return none
    | some (.enumeration name members description) => return some (.enumeration name description members)
    | some node => return definitionOf node (← nodeFields node)

/-- Adds the pending types and all that they refer to, each where it is first met; `fuel` bounds how many are
added. -/
def collectTypes (fuel : Nat) (met : List (NamedType × Definition)) :
    List NamedType → Work FieldsError (List (NamedType × Definition))
  | [] => return met
  | t :: pending =>
    if met.any (·.1 = t) then collectTypes fuel met pending
    else
      match fuel with
      | 0 => return met
      | fuel + 1 => do
        match ← define t with
        | none => collectTypes (fuel + 1) met pending
        | some d => collectTypes fuel (met ++ [(t, d)]) (d.references ++ pending)
  termination_by pending => (fuel, pending.length)

/-- More types than a schema can have: the scalars, the nodes that there are, and two nodes for each declaration that
may still get some. -/
def typeBound (s : Session) : Nat := 8 + s.nodes.length + 2 * s.declarations.length

/-- The types, each told again in the session; those that are nothing any more are left out. -/
def retell : List (NamedType × Definition) → Work FieldsError (List (NamedType × Definition))
  | [] => return []
  | (t, _) :: types => do
    let d ← define t
    return (d.map fun d => (t, d)).toList ++ (← retell types)

end ThriftGateway.Schema
