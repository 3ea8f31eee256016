/-!
# Reading UTF-8 with replacement

A decoder that is fed one byte at a time. Bytes that cannot be part of a character are replaced:
each longest beginning of a character that is broken off becomes one replacement character, and
decoding resumes with the byte that broke it off.
-/
namespace Intake.Text.Utf8

/-- The character put in place of what cannot be decoded. -/
def replacement : Char := Char.ofNat 0xFFFD

/-- Where the decoder stands: between characters, or inside one that misses `missing` more bytes, the
next of them within `low` and `high`, with the bits of `value` read so far. -/
inductive State where
  | ready
  | inside (missing low high value : Nat)
  deriving DecidableEq, Repr, Inhabited

/-- A byte met between characters. -/
def start (b : Nat) : List Char × State :=
  if b < 0x80 then ([Char.ofNat b], .ready)
  else if 0xC2 ≤ b ∧ b ≤ 0xDF then ([], .inside 1 0x80 0xBF (b - 0xC0))
  else if b = 0xE0 then ([], .inside 2 0xA0 0xBF 0)
  else if b = 0xED then ([], .inside 2 0x80 0x9F 0xD)
  else if 0xE1 ≤ b ∧ b ≤ 0xEF then ([], .inside 2 0x80 0xBF (b - 0xE0))
  else if b = 0xF0 then ([], .inside 3 0x90 0xBF 0)
  else if b = 0xF4 then ([], .inside 3 0x80 0x8F 4)
  else if 0xF1 ≤ b ∧ b ≤ 0xF3 then ([], .inside 3 0x80 0xBF (b - 0xF0))
  else ([replacement], .ready)

/-- Takes one byte: what it completes, and where it leaves the decoder. -/
def feed : State → Nat → List Char × State
  | .ready, b => start b
  | .inside missing low high value, b =>
    if low ≤ b ∧ b ≤ high then
      let value := value * 64 + b % 64
      if missing ≤ 1 then ([Char.ofNat value], .ready)
      else ([], .inside (missing - 1) 0x80 0xBF value)
    else
      let (text, next) := start b
      (replacement :: text, next)

/-- What is owed when the bytes end. -/
def finish : State → List Char
  | .ready => []
  | .inside .. => [replacement]

def decodeFrom (s : State) : List UInt8 → List Char
  | [] => finish s
  | b :: rest => (feed s b.toNat).1 ++ decodeFrom (feed s b.toNat).2 rest

def decode (bytes : List UInt8) : List Char := decodeFrom .ready bytes

end Intake.Text.Utf8
