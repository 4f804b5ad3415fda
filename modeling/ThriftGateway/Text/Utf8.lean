/-!
# UTF-8

Bytes as text.  `decode` refuses overlong forms, surrogates and numbers past the last code point, and says at
which byte the first sequence that is none begins and what is wrong with it.
-/

namespace ThriftGateway.Text

/-- What is wrong with a sequence of bytes. -/
inductive Utf8Fault where
  | invalidStart
  | invalidContinuation
  | unexpectedEnd
  deriving DecidableEq, Repr

/-- The words for a fault. -/
def Utf8Fault.reason : Utf8Fault → String
  | invalidStart => "invalid start byte"
  | invalidContinuation => "invalid continuation byte"
  | unexpectedEnd => "unexpected end of data"

/-- Reads continuation bytes; the first of them has to lie between `low` and `high`. -/
def continuation (low high : Nat) : (count : Nat) → (value : Nat) → List UInt8 →
    Except Utf8Fault (Nat × List UInt8)
  | 0, value, bytes => .ok (value, bytes)
  | _ + 1, _, [] => .error .unexpectedEnd
  | n + 1, value, b :: bytes =>
    if low ≤ b.toNat ∧ b.toNat ≤ high then continuation 0x80 0xBF n (value * 64 + b.toNat % 64) bytes
    else .error .invalidContinuation

/-- The code point that begins with byte `b`, and what follows it. -/
def decodeOne (b : UInt8) (bytes : List UInt8) : Except Utf8Fault (Nat × List UInt8) :=
  let n := b.toNat
  if n < 0x80 then .ok (n, bytes)
  else if n < 0xC2 then .error .invalidStart
  else if n < 0xE0 then continuation 0x80 0xBF 1 (n % 32) bytes
  else if n = 0xE0 then continuation 0xA0 0xBF 2 (n % 16) bytes
  else if n = 0xED then continuation 0x80 0x9F 2 (n % 16) bytes
  else if n < 0xF0 then continuation 0x80 0xBF 2 (n % 16) bytes
  else if n = 0xF0 then continuation 0x90 0xBF 3 (n % 8) bytes
  else if n < 0xF4 then continuation 0x80 0xBF 3 (n % 8) bytes
  else if n = 0xF4 then continuation 0x80 0x8F 3 (n % 8) bytes
  else .error .invalidStart

/-- Decodes bytes that begin at place `at_` of a text; `fuel` is at least their number. -/
def decodeFrom : (fuel : Nat) → (at_ : Nat) → List UInt8 → Except (Utf8Fault × Nat) (List Char)
  | _, _, [] => .ok []
  | 0, _, _ => .ok []
  | fuel + 1, at_, b :: bytes =>
    match decodeOne b bytes with
    | .error f => .error (f, at_)
    | .ok (n, rest) =>
      (decodeFrom fuel (at_ + 1 + (bytes.length - rest.length)) rest).map (Char.ofNat n :: ·)

/-- The text that bytes stand for, or the first fault and the byte at which it begins. -/
def decode (bytes : List UInt8) : Except (Utf8Fault × Nat) (List Char) := decodeFrom bytes.length 0 bytes

/-- The bytes of a text. -/
def encode (s : String) : List UInt8 := s.toUTF8.toList

/-- Every line end as a line feed: a carriage return, alone or before a line feed, becomes one. -/
def unixLines : List Char → List Char
  | [] => []
  | '\r' :: '\n' :: cs => '\n' :: unixLines cs
  | '\r' :: cs => '\n' :: unixLines cs
  | c :: cs => c :: unixLines cs

end ThriftGateway.Text
