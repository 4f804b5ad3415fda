import ThriftGateway.Value.Display

/-!
# Parts of values

What a value holds at an index or under a key, and the parts of numbers.  Sequences have indices, and those below zero
count from the end; maps have keys, which are values that cannot be changed.
-/

namespace ThriftGateway

/-- The kinds of sequences. -/
inductive SequenceKind where
  | list
  | tuple
  | text
  deriving DecidableEq, Repr

/-- Why a value has no item under a key. -/
inductive ItemError where
  /-- The part of the key because of which it cannot be the key of a map. -/
  | unkeyable (part : Value)
  | notIndex (sequence : SequenceKind) (key : Value)
  | noItems (kind : String)
  | outOfRange (sequence : SequenceKind)
  | indexTooLarge
  | noKey (key : Value)
  deriving Repr

/-- The name of a kind of sequence in messages. -/
def SequenceKind.name : SequenceKind → String
  | list => "list"
  | tuple => "tuple"
  | text => "string"

/-- The words for an error. -/
def ItemError.message : ItemError → String
  | unkeyable part => "unhashable type: '" ++ part.kindName ++ "'"
  | notIndex .text key => "string indices must be integers, not '" ++ key.kindName ++ "'"
  | notIndex sequence key => sequence.name ++ " indices must be integers or slices, not " ++ key.kindName
  | noItems kind => "'" ++ kind ++ "' object is not subscriptable"
  | outOfRange sequence => sequence.name ++ " index out of range"
  | indexTooLarge => "cannot fit 'int' into an index-sized integer"
  | noKey key => key.display

namespace Value

mutual
/-- The part of a value because of which it cannot be the key of a map. -/
def unkeyable? : Value → Option Value
  | list xs => some (list xs)
  | map es => some (map es)
  | set false xs => some (set false xs)
  | tuple xs => unkeyableItem? xs
  | _ => none

/-- The first such part among several values. -/
def unkeyableItem? : List Value → Option Value
  | [] => none
  | x :: xs => (unkeyable? x).or (unkeyableItem? xs)
end

/-- The index that a value is: an integer, or a truth value. -/
def index? : Value → Option Int
  | bool b => some (if b then 1 else 0)
  | int n => some n
  | _ => none

end Value

/-- The greatest index. -/
def greatestIndex : Nat := 9223372036854775807

/-- The item of a sequence under a key. -/
def itemAt {α : Type} (sequence : SequenceKind) (xs : List α) (key : Value) : Except ItemError α :=
  match key.index? with
  | none => .error (.notIndex sequence key)
  | some i =>
    if greatestIndex < i.natAbs then .error .indexTooLarge
    else
      let place := if i < 0 then i + xs.length else i
      match (if place < 0 then none else xs[place.toNat]?) with
      | some x => .ok x
      | none => .error (.outOfRange sequence)

/-- The item of a value under a key. -/
def Value.item (v key : Value) : Except ItemError Value :=
  match v with
  | .map entries =>
    match key.unkeyable?, lookup? entries key with
    | some part, _ => .error (.unkeyable part)
    | none, some x => .ok x
    | none, none => .error (.noKey key)
  | .list xs => itemAt .list xs key
  | .tuple xs => itemAt .tuple xs key
  | .text s => itemAt .text (s.toList.map fun c => .text c.toString) key
  | v => .error (.noItems v.kindName)

/-- The part of a number that has a name: all numbers have a real and an imaginary part, and integers, truth values
among them, are fractions too. -/
def Value.part? (v : Value) (name : String) : Option Value :=
  let integerPart (n : Int) : Option Value :=
    if name = "real" ∨ name = "numerator" then some (.int n)
    else if name = "imag" then some (.int 0)
    else if name = "denominator" then some (.int 1)
    else none
  match v with
  | .int n => integerPart n
  | .bool b => integerPart (if b then 1 else 0)
  | .float d =>
    if name = "real" then some (.float d)
    else if name = "imag" then some (.float (.ofInt 0))
    else none
  | _ => none

end ThriftGateway
