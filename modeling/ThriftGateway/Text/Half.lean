/-!
# Halves of characters

A character beyond the first plane can be written as two escapes, each of which is a half of it.  A half without the
other one is no character, so texts hold another character in its place, its stand-in.  Which characters are stand-ins
is chosen for the texts at hand.  The key facts: the stand-ins chosen for some characters are none of them
(`StandIns.half?_freeOf`), and a stand-in tells its half (`StandIns.half?_of`).
-/

namespace ThriftGateway.Text

/-- The first half of a character. -/
def isHighHalf (n : Nat) : Bool := 0xD800 ≤ n && n < 0xDC00

/-- The second half of a character. -/
def isLowHalf (n : Nat) : Bool := 0xDC00 ≤ n && n < 0xE000

/-- The character that two halves make. -/
def joinHalves (high low : Nat) : Char := Char.ofNat (0x10000 + (high - 0xD800) * 0x400 + (low - 0xDC00))

/-- The number of halves there are. -/
def halfCount : Nat := 0x800

/-- Characters in a row that stand for the halves, from the number `first` on.  Behind the last character there are
none, so that nothing stands for a half. -/
structure StandIns where
  first : Nat := 0x110000
  deriving DecidableEq, Repr, Inhabited

namespace StandIns

/-- The character that stands for a half. -/
def of (k : StandIns) (half : Nat) : Char := Char.ofNat (k.first + (half - 0xD800))

/-- The half that a character stands for. -/
def half? (k : StandIns) (c : Char) : Option Nat :=
  if k.first ≤ c.toNat ∧ c.toNat < k.first + halfCount then some (0xD800 + (c.toNat - k.first)) else none

/-- The number of a character, or of the half that it stands for. -/
def number (k : StandIns) (c : Char) : Nat := (k.half? c).getD c.toNat

/-- All stand-ins that are characters for private use. -/
def choices : List StandIns := (List.range 64).map fun i => ⟨0xF0000 + i * halfCount⟩

/-- Stand-ins that are none of the characters.  There are none at all if all choices are taken. -/
def freeOf (cs : List Char) : StandIns := (choices.find? fun k => cs.all fun c => (k.half? c).isNone).getD {}

/-- Without stand-ins no character is one. -/
theorem half?_none (c : Char) : ({} : StandIns).half? c = none := by
  have h : c.toNat < 0x110000 := by
    have := c.valid
    simp only [UInt32.isValidChar, Nat.isValidChar] at this
    simp only [Char.toNat]
    omega
  simp only [half?]
  rw [if_neg]
  omega

/-- None of the characters is among the stand-ins chosen for them. -/
theorem half?_freeOf {cs : List Char} {c : Char} (h : c ∈ cs) : (freeOf cs).half? c = none := by
  unfold freeOf
  cases hk : choices.find? fun k => cs.all fun c => (k.half? c).isNone with
  | none => exact half?_none c
  | some k =>
    have hfree := List.find?_some hk
    simpa using List.all_eq_true.1 hfree c h

private theorem toNat_ofNat {n : Nat} (h : n.isValidChar) : (Char.ofNat n).toNat = n := by
  rw [Char.ofNat, dif_pos h]
  rfl

/-- A stand-in tells the half that it stands for. -/
theorem half?_of {k : StandIns} {half : Nat} (hk : k ∈ choices) (low : 0xD800 ≤ half) (high : half < 0xE000) :
    k.half? (k.of half) = some half := by
  obtain ⟨i, hi, rfl⟩ := List.mem_map.1 hk
  have hi := List.mem_range.1 hi
  have hv : (0xF0000 + i * halfCount + (half - 0xD800)).isValidChar := by
    simp only [Nat.isValidChar, halfCount]
    omega
  simp only [half?, of, toNat_ofNat hv]
  rw [if_pos (by simp only [halfCount]; omega)]
  congr 1
  omega

end StandIns

end ThriftGateway.Text
