import ThriftGateway.Source.Path

/-!
# Giving out names

A name table gives every request a name of its own: the preferred one if it is free, else the preferred one with a
number behind it.  The table remembers the last number given out for each preferred name.
-/

namespace ThriftGateway.Graph

/-- What a type is to be named for. -/
structure NameRequest where
  /-- The file that declares it. -/
  file : Source.WrittenPath
  /-- The declared name. -/
  name : String
  isInput : Bool
  isEnumeration : Bool
  deriving DecidableEq, Repr

/-- A way of naming types. -/
abbrev TypeNaming := NameRequest → String

/-- The declared name, with `Input` behind it for an input object. -/
def declaredName : TypeNaming := fun r => if r.isInput then r.name ++ "Input" else r.name

/-- A way of naming the queries for the functions of a service. -/
abbrev QueryNaming := (service function : String) → String

/-- Service and function with an underscore between them. -/
def joinedName : QueryNaming := fun service function => service ++ "_" ++ function

/-- Names that are taken from the start. -/
def reservedNames : List String := ["Query", "Int", "Float", "String", "Boolean", "ID", "Int64", "Map", "Set"]

/-- The names in use, and the last number given out for each preferred name. -/
structure NameTable where
  used : List String
  counters : List (String × Nat)
  deriving Repr

namespace NameTable

/-- Only the reserved names are in use. -/
def fresh : NameTable := ⟨reservedNames, []⟩

variable (t : NameTable)

/-- Whether a name is in use. -/
def isUsed (name : String) : Bool := t.used.contains name

/-- The last number given out for a preferred name. -/
def counter (preferred : String) : Nat := (t.counters.lookup preferred).getD 0

/-- A preferred name with a number. -/
def numbered (preferred : String) (n : Nat) : String := preferred ++ toString n

/-- The first number from `n` on that gives a free name. -/
def firstFree (preferred : String) : (fuel : Nat) → (n : Nat) → Nat
  | 0, n => n
  | fuel + 1, n => if t.isUsed (numbered preferred n) then firstFree preferred fuel (n + 1) else n

/-- The table with a counter set. -/
def setCounter (preferred : String) (n : Nat) : List (String × Nat) :=
  (preferred, n) :: t.counters.filter (·.1 ≠ preferred)

/-- Gives out a name.  Of one number more than there are names in use, one is free. -/
def allocate (preferred : String) : String × NameTable :=
  if t.isUsed preferred then
    let n := t.firstFree preferred (t.used.length + 1) (t.counter preferred + 1)
    let given := numbered preferred n
    (given, ⟨given :: t.used, t.setCounter preferred n⟩)
  else (preferred, { t with used := preferred :: t.used })

end NameTable

end ThriftGateway.Graph
