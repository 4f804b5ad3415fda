import ThriftGateway.Value.Basic

/-!
# The order of values

Numbers are ordered by size, texts by their characters, tuples by the first items that differ, and frozen sets by
inclusion.  Other pairs have no order, so sorting may fail.
-/

namespace ThriftGateway

namespace Number.Double

/-- A finite number in units of the least positive one. -/
def inLeastUnits? : Double → Option Int
  | finite negative m e =>
    let n : Int := m * twoTo (e - leastExponent).toNat
    some (if negative then -n else n)
  | _ => none

/-- An integer in units of the least positive number. -/
def intInLeastUnits (n : Int) : Int := n * twoTo (-leastExponent).toNat

end Number.Double

namespace Value

/-- A number on the line with both infinities. -/
inductive Magnitude where
  | least
  | at (units : Int)
  | greatest

/-- The place of a number, in units of the least positive one; `nan` has none. -/
def magnitude? : Value → Option Magnitude
  | bool b => some (.at (Number.Double.intInLeastUnits (if b then 1 else 0)))
  | int n => some (.at (Number.Double.intInLeastUnits n))
  | float (.infinite negative) => some (if negative then .least else .greatest)
  | float d => d.inLeastUnits?.map .at
  | _ => none

/-- The order of magnitudes. -/
def Magnitude.less : Magnitude → Magnitude → Bool
  | .least, .least => false
  | .least, _ => true
  | .at m, .at n => m < n
  | .at _, .greatest => true
  | _, _ => false

/-- A number or a truth value. -/
def isNumber : Value → Bool
  | bool _ | int _ | float _ => true
  | _ => false

/-- Whether one number is less than another; `nan` is less than nothing and nothing is less than it. -/
def lessNumber (a b : Value) : Bool :=
  match a.magnitude?, b.magnitude? with
  | some m, some n => m.less n
  | _, _ => false

mutual
/-- Whether one value comes before another, if the two have an order. -/
def less? : Value → Value → Option Bool
  | text s, text t => some (s < t)
  | tuple xs, tuple ys => lessItems? xs ys
  | list xs, list ys => lessItems? xs ys
  | set _ xs, set _ ys => some (xs.length < ys.length && sameMembers xs ys)
  | a, b => if a.isNumber && b.isNumber then some (lessNumber a b) else none

/-- The order of the first items that differ; a list comes before those that go on after it. -/
def lessItems? : List Value → List Value → Option Bool
  | [], ys => some !ys.isEmpty
  | _ :: _, [] => some false
  | x :: xs, y :: ys => if same x y then lessItems? xs ys else less? x y
end

/-- The place of `x` in the items from `lo` to `hi`, found by halving: behind those that it does not come
before. -/
def placeOf (items : Array Value) (x : Value) (lo hi : Nat) : Option Nat :=
  if _h : lo < hi then
    let mid := (lo + hi) / 2
    match (items[mid]?).bind (less? x) with
    | none => none
    | some true => placeOf items x lo mid
    | some false => placeOf items x (mid + 1) hi
  else some lo
  termination_by hi - lo
  decreasing_by all_goals omega

/-- Inserts the items one by one into sorted ones. -/
def insertAll (sorted : Array Value) : List Value → Option (Array Value)
  | [] => some sorted
  | x :: xs =>
    match placeOf sorted x 0 sorted.size with
    | none => none
    | some i => insertAll (sorted.extract 0 i ++ #[x] ++ sorted.extract i sorted.size) xs

/-- The longest run at the front in which every item comes before the one ahead of it (`down`), or none does. -/
def runFrom (down : Bool) (last : Value) : List Value → Option (List Value × List Value)
  | [] => some ([], [])
  | x :: xs =>
    match less? x last with
    | none => none
    | some b =>
      if b = down then (runFrom down x xs).map fun r => (x :: r.1, r.2)
      else some ([], x :: xs)

/-- The values in order, equal ones as they were; none if two that have to be compared have no order. -/
def sort? : List Value → Option (List Value)
  | x :: y :: rest =>
    match less? y x with
    | none => none
    | some down =>
      match runFrom down y rest with
      | none => none
      | some (run, others) =>
        let run := x :: y :: run
        (insertAll (if down then run.reverse else run).toArray others).map Array.toList
  | xs => some xs

end Value

end ThriftGateway
