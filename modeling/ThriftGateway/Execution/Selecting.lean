import ThriftGateway.Execution.Input
import ThriftGateway.Request.Document
import ThriftGateway.Schema.Describing

/-!
# Selecting fields

Which fields a selection comes to.  A field, or a fragment, can be left out by a condition, whose argument is read like
the argument of a field.  A fragment adds its fields where it is first met, if it is on the type of the object that is
selected from, and nothing where it is met again.
-/

namespace ThriftGateway.Execution

open Graph (InputField)
open Request (Argument Directive Fragment SelectedField Selection fragment?)
open Schema (TypeSystem)

/-! ### Arguments -/

/-- Reads one argument of a field: its value if it has one, or what is wrong. -/
def readArgument (s : TypeSystem) (bindings : List (String × Value)) (given : List Argument)
    (d : InputField) : Except String (Option Value) :=
  let name := "Argument '" ++ d.name ++ "'"
  match (given.find? fun a => a.name = d.name).map Argument.value with
  | none =>
    if isRequired d then .error (name ++ " of required type '" ++ s.written d.type ++ "' was not provided.")
    else .ok d.default
  | some l =>
    let unset : Bool := match l with
      | .var v => (variableValue? bindings v).isNone
      | _ => false
    if unset && (d.default.isSome || !d.type.isNonNull) then .ok d.default
    else
      match readLiteral s bindings d.type l with
      | some v => .ok (some v)
      | none =>
        match literalFaults s (some bindings) d.type l with
        | f :: _ => .error (name ++ " has invalid value" ++ pathText f.path ++ ": " ++ f.message)
        | [] => .error (name ++ " has invalid value.")

/-- Reads the arguments of a field. -/
def readArguments (s : TypeSystem) (bindings : List (String × Value)) (given : List Argument) :
    List InputField → Except String (List (String × Value))
  | [] => .ok []
  | d :: ds => do
    let v ← readArgument s bindings given d
    let rest ← readArguments s bindings given ds
    return match v with
      | some v => (d.name, v) :: rest
      | none => rest

/-! ### Conditions -/

/-- What the condition of a name among directives is given, if it is there. -/
def readCondition (s : TypeSystem) (bindings : List (String × Value)) (d : Schema.DirectiveDefinition)
    (directives : List Directive) : Except String (Option Bool) :=
  match directives.find? fun x => x.name.text = d.name with
  | none => .ok none
  | some x =>
    (readArguments s bindings x.arguments d.arguments).map fun arguments =>
      match arguments.lookup "if" with
      | some (.bool b) => some b
      | _ => none

/-- Whether what has some directives is selected. -/
def isSelected (s : TypeSystem) (bindings : List (String × Value)) (directives : List Directive) :
    Except String Bool := do
  if (← readCondition s bindings Schema.skipDirective directives) = some true then return false
  return (← readCondition s bindings Schema.includeDirective directives) ≠ some false

/-! ### Fields -/

/-- The fragments that are left when one has been met. -/
def without (f : Fragment) (pool : List Fragment) : List Fragment := pool.filter (·.name ≠ f.name)

/-- The fields that selections come to, and the fragments that have not been met behind them; or why it cannot be
decided what is selected. -/
abbrev Collected := Except String (List SelectedField × List Fragment)

section

-- `chooses` says whether what has some directives is selected, `typeName` is the type of the object, and `enter` says
-- what the inside of a fragment comes to
variable (chooses : List Directive → Except String Bool) (typeName : String)
  (enter : (pool : List Fragment) → List Selection → Collected)

mutual
/-- The fields that a selection comes to; `pool` are the fragments that have not been met before. -/
def collectSelection (pool : List Fragment) : Selection → Collected
  | .field extent alias? name arguments directives braces selections => do
    if ← chooses directives then return ([⟨extent, alias?, name, arguments, directives, braces, selections⟩], pool)
    return ([], pool)
  | .spread _ name directives =>
    match fragment? pool name.text with
    | none => return ([], pool)
    | some f => do
      if ← chooses directives then
        if f.condition.text = typeName then enter (without f pool) f.selections else return ([], without f pool)
      else return ([], pool)
  | .inline _ condition directives _ selections => do
    if (← chooses directives) && condition.all (·.text = typeName) then collectSelections pool selections
    else return ([], pool)

/-- The fields that several selections come to. -/
def collectSelections (pool : List Fragment) : List Selection → Collected
  | [] => return ([], pool)
  | x :: xs => do
    let (fields, pool) ← collectSelection pool x
    let (rest, pool) ← collectSelections pool xs
    return (fields ++ rest, pool)
end

/-- The fields that selections come to; `depth` is more than the number of fragments in the pool. -/
def collectTo : (depth : Nat) → (pool : List Fragment) → List Selection → Collected
  | 0, pool, _ => .ok ([], pool)
  | depth + 1, pool, selections => collectSelections chooses typeName (collectTo depth) pool selections

/-- The fields that selections come to. -/
def collectFields (fragments : List Fragment) (selections : List Selection) : Except String (List SelectedField) :=
  (collectTo chooses typeName (fragments.length + 1) fragments selections).map (·.1)

end

/-! ### All fields -/

mutual
/-- All fields that a selection may come to; `spread` are those of a fragment. -/
def gatherSelection (spread : String → List SelectedField) : Selection → List SelectedField
  | .field extent alias? name arguments directives braces selections =>
    [⟨extent, alias?, name, arguments, directives, braces, selections⟩]
  | .spread _ name _ => spread name.text
  | .inline _ _ _ _ selections => gatherSelections spread selections

/-- All fields that several selections may come to. -/
def gatherSelections (spread : String → List SelectedField) : List Selection → List SelectedField
  | [] => []
  | x :: xs => gatherSelection spread x ++ gatherSelections spread xs
end

/-- All fields of a fragment in a pool, in which there are no more fragments than `depth`. -/
def gatherFragment : (depth : Nat) → (pool : List Fragment) → String → List SelectedField
  | 0, _, _ => []
  | depth + 1, pool, name =>
    match fragment? pool name with
    | none => []
    | some f => gatherSelections (gatherFragment depth (without f pool)) f.selections

/-- All fields that selections may come to, under any conditions and for objects of any type. -/
def gather (fragments : List Fragment) (selections : List Selection) : List SelectedField :=
  gatherSelections (gatherFragment fragments.length fragments) selections

/-! ### Fragments inside -/

mutual
/-- The names of the fragments in a selection. -/
def spreadsIn : Selection → List String
  | .field _ _ _ _ _ _ selections => spreadsInAll selections
  | .spread _ name _ => [name.text]
  | .inline _ _ _ _ selections => spreadsInAll selections

/-- The names of the fragments in several selections. -/
def spreadsInAll : List Selection → List String
  | [] => []
  | x :: xs => spreadsIn x ++ spreadsInAll xs
end

/-- The fragments of a pool, in which there are no more than `depth`, that have one of the names, or stand inside of
these. -/
def reachedTo : (depth : Nat) → (pool : List Fragment) → (names : List String) → List Fragment
  | 0, _, _ => []
  | depth + 1, pool, names =>
    match pool.find? (names.contains ·.name) with
    | none => []
    | some f => f :: reachedTo depth (without f pool) (spreadsInAll f.selections ++ names)

/-- The fragments of a pool that have one of the names, or stand inside of these. -/
def reached (pool : List Fragment) (names : List String) : List Fragment := reachedTo pool.length pool names

end ThriftGateway.Execution
