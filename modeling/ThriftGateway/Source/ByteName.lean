import ThriftGateway.Text.Half
import ThriftGateway.Text.Utf8

/-!
# Names of files by their bytes

The name of a file is a sequence of bytes.  In a written name, a half of a character from `DC80` to `DCFF` stands for
one of the bytes from `80` to `FF`, and characters stand for their bytes.  Other halves stand for no byte, so no file
has a name with one of them.
-/

namespace ThriftGateway.Source

open Text (StandIns)

/-- The byte that a half stands for. -/
def byteOfHalf? (half : Nat) : Option UInt8 :=
  if 0xDC80 ≤ half ∧ half ≤ 0xDCFF then some (half - 0xDC00).toUInt8 else none

/-- Whether a written name holds a half. -/
def holdsHalf (halves : StandIns) (name : String) : Bool := name.toList.any fun c => (halves.half? c).isSome

/-- Whether a written name holds a half that stands for no byte. -/
def holdsStrayHalf (halves : StandIns) (name : String) : Bool :=
  name.toList.any fun c => (halves.half? c).any fun n => (byteOfHalf? n).isNone

/-- The bytes of a written name without stray halves. -/
def nameBytes (halves : StandIns) (name : String) : List UInt8 :=
  name.toList.flatMap fun c =>
    match halves.half? c with
    | some n => (byteOfHalf? n).toList
    | none => Text.encode c.toString

/-- The name without halves that has the same bytes. -/
def plainName? (halves : StandIns) (name : String) : Option String :=
  if holdsHalf halves name then (Text.decode (nameBytes halves name)).toOption.map String.ofList else some name

end ThriftGateway.Source
