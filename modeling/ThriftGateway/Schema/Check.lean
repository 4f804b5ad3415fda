import ThriftGateway.Schema.Collection

/-!
# Checking a schema

The types of a schema must have names of their own, fields or members, names that are not hidden, and no input
object may need itself to be given.
-/

namespace ThriftGateway.Schema

open Graph (EnumMember GraphType InputField NamedType OutputField isHidden)

/-- What is wrong with a schema. -/
inductive Fault where
  | noFields (typeName : String)
  | noMembers (typeName : String)
  | hiddenName (name : String)
  /-- An input object needs itself, through these fields. -/
  | endlessInput (typeName : String) (path : List String)
  deriving DecidableEq, Repr

/-- The words for a fault. -/
def Fault.message : Fault → String
  | noFields name => "Type " ++ name ++ " must define one or more fields."
  | noMembers name => "Enum type " ++ name ++ " must define one or more values."
  | hiddenName name => "Name '" ++ name ++ "' must not begin with '__', which is reserved by GraphQL introspection."
  | endlessInput name path =>
    "Input Object " ++ name ++ " cannot be provided a finite value because it references itself through fields: " ++
      ", ".intercalate path ++ "."

/-- The first name that another one before it equals. -/
def firstRepeated (seen : List String) : List String → Option String
  | [] => none
  | n :: ns => if seen.contains n then some n else firstRepeated (n :: seen) ns

/-- A name that should not be hidden. -/
def nameFault (name : String) : List Fault := if isHidden name then [.hiddenName name] else []

/-- What is wrong with the fields of an object. -/
def fieldFaults (fields : List OutputField) : List Fault :=
  fields.flatMap fun f => nameFault f.name ++ f.arguments.flatMap fun a => nameFault a.name

/-- What is wrong with a type on its own. -/
def Definition.faults : Definition → List Fault
  | .scalar s => nameFault s.name
  | .object name _ fields =>
    nameFault name ++ (if fields.isEmpty then [.noFields name] else []) ++ fieldFaults fields
  | .input name _ fields =>
    nameFault name ++ (if fields.isEmpty then [.noFields name] else []) ++ fields.flatMap fun f => nameFault f.name
  | .enumeration name _ members =>
    nameFault name ++ (if members.isEmpty then [.noMembers name] else []) ++ members.flatMap fun m => nameFault m.name

/-! ### Input objects that need themselves -/

/-- The input object that a field needs, if it needs one: its type is the object itself and forbids `null`. -/
def neededInput? (s : TypeSystem) (f : InputField) : Option (NamedType × String × List InputField) :=
  match f.type with
  | .nonNull (.named t) =>
    match s.definition? t with
    | some (.input name _ fields) => some (t, name, fields)
    | _ => none
  | _ => none

/-- The needed input objects of the fields, with the path step of each field. -/
def needs (s : TypeSystem) (owner : String) (fields : List InputField) :
    List (String × NamedType × String × List InputField) :=
  fields.filterMap fun f => (neededInput? s f).map fun n => (owner ++ "." ++ f.name, n)

/-- What a search for needed input objects has found. -/
structure Search where
  visited : List NamedType
  faults : List Fault

/-- The input objects on the way to the current one, with the number of steps that lead to each. -/
abbrev Way := List (NamedType × Nat)

/-- Searches behind the needs of an input object.  `way` holds the objects on the way to it and `path` the steps;
`fuel` bounds the depth. -/
def searchNeeds (s : TypeSystem) : (fuel : Nat) → (way : Way) → (path : List String) →
    List (String × NamedType × String × List InputField) → Search → Search
  | _, _, _, [], r => r
  | 0, _, _, _ :: _, r => r
  | fuel + 1, way, path, (step, t, name, fields) :: rest, r =>
    let r :=
      match way.lookup t with
      | some start => { r with faults := r.faults ++ [.endlessInput name ((path ++ [step]).drop start)] }
      | none =>
        if r.visited.contains t then r
        else
          searchNeeds s fuel ((t, path.length + 1) :: way) (path ++ [step]) (needs s name fields)
            { r with visited := t :: r.visited }
    searchNeeds s (fuel + 1) way path rest r
  termination_by fuel _ _ pending => (fuel, pending.length)

/-- Searches from one input object, unless that has been done. -/
def searchFrom (s : TypeSystem) (t : NamedType) (name : String) (fields : List InputField) (r : Search) : Search :=
  if r.visited.contains t then r
  else
    searchNeeds s (s.types.length + 1) [(t, 0)] [] (needs s name fields) { r with visited := t :: r.visited }

/-- Searches from one more type. -/
def searchType (s : TypeSystem) (r : Search) (entry : NamedType × Definition) : Search :=
  match entry with
  | (t, .input name _ fields) => searchFrom s t name fields r
  | _ => r

/-- All that is wrong with a schema: what is wrong with its types on their own, in their order, and then the input
objects that need themselves. -/
def Schema.faults (s : Schema) : List Fault :=
  s.definitions.flatMap Definition.faults ++ (s.types.foldl (searchType s.system) ⟨[], []⟩).faults

/-- The names of members in a schema, in the order of its types. -/
def Schema.memberNames (s : Schema) : List String :=
  s.definitions.flatMap fun
    | .enumeration _ _ members => members.map EnumMember.name
    | _ => []

end ThriftGateway.Schema
