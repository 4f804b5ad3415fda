import ThriftGateway.Number.Double

/-!
# Values

The values that requests, responses, configurations and constants are made of.  Maps keep the order in which
their keys were first put, and their keys may be of any kind.  `Value.same` is equality of values: a truth value
equals the number 1 or 0, numbers are equal whatever their kind, and an object of a client's own equals itself alone.
-/

namespace ThriftGateway

open Number (Double)

/-- What can be seen of an object of a client's own. -/
structure Thing where
  /-- Which object it is. -/
  id : Nat
  /-- The name of its kind. -/
  kind : String
  text : String
  /-- The form in which it is shown inside of other values. -/
  shown : String
  /-- The form in which messages about leaf types show it. -/
  inspected : String
  /-- Whether its kind comes with the language: its text does not stand for it then. -/
  builtIn : Bool
  callable : Bool
  deriving DecidableEq, Repr, Inhabited

/-- A value. -/
inductive Value where
  | null
  /-- The lack of a value, where even `null` would be one. -/
  | undefined
  | bool (b : Bool)
  | int (n : Int)
  | float (d : Double)
  | text (s : String)
  | list (items : List Value)
  | tuple (items : List Value)
  | set (frozen : Bool) (items : List Value)
  | map (entries : List (Value × Value))
  /-- An object of a client's own, with its attributes. -/
  | thing (t : Thing) (attributes : List (String × Value))
  deriving Repr, Inhabited

namespace Value

/-- The whole number that a value is equal to, if there is one. -/
def integer? : Value → Option Int
  | bool b => some (if b then 1 else 0)
  | int n => some n
  | float d => d.integer?
  | _ => none

/-- Equality of numbers and truth values, whatever their kinds; false for all else. -/
def sameNumber (a b : Value) : Bool :=
  match a, b with
  | float x, float y => x.same y
  | a, b =>
    match a.integer?, b.integer? with
    | some m, some n => m = n
    | _, _ => false

mutual
/-- Equality of values. -/
def same : Value → Value → Bool
  | null, null => true
  | undefined, undefined => true
  | text s, text t => s = t
  | list xs, list ys => sameAll xs ys
  | tuple xs, tuple ys => sameAll xs ys
  | set _ xs, set _ ys => xs.length = ys.length && sameMembers xs ys
  | map xs, map ys => xs.length = ys.length && sameEntries xs ys
  | thing t _, thing u _ => t.id = u.id
  | a, b => sameNumber a b

/-- Equality item by item. -/
def sameAll : List Value → List Value → Bool
  | [], [] => true
  | x :: xs, y :: ys => same x y && sameAll xs ys
  | _, _ => false

/-- Every item of the first list equals one of the second. -/
def sameMembers : List Value → List Value → Bool
  | [], _ => true
  | x :: xs, ys => ys.any (fun y => same x y) && sameMembers xs ys

/-- Every entry of the first list equals one of the second. -/
def sameEntries : List (Value × Value) → List (Value × Value) → Bool
  | [], _ => true
  | (k, v) :: es, fs => fs.any (fun f => same k f.1 && same v f.2) && sameEntries es fs
end

/-- Puts an entry into a list of entries: a key that is there keeps its place and takes the new value. -/
def putEntry (key value : Value) : List (Value × Value) → List (Value × Value)
  | [] => [(key, value)]
  | (k, v) :: rest => if same k key then (k, value) :: rest else (k, v) :: putEntry key value rest

/-- The map with the given entries, in order; later entries replace earlier ones with the same key. -/
def ofEntries (entries : List (Value × Value)) : Value :=
  .map (entries.foldl (fun es e => putEntry e.1 e.2 es) [])

/-- The set with the given members; a member that is there already is not added. -/
def ofMembers (frozen : Bool) (members : List Value) : Value :=
  .set frozen (members.foldl (fun xs x => if xs.any (same · x) then xs else xs ++ [x]) [])

/-- The value under a key of a list of entries. -/
def lookup? (entries : List (Value × Value)) (key : Value) : Option Value :=
  (entries.find? fun e => same e.1 key).map (·.2)

/-- A map with text keys. -/
def record (fields : List (String × Value)) : Value := ofEntries (fields.map fun f => (text f.1, f.2))

end Value

end ThriftGateway
