/-!
# Shortest decimals

Of the decimals that read back as a given double, the ones with the fewest digits; of those the one
nearest to the double, and of two equally near the one whose last digit is even. A decimal reads back
as the double when it lies between the midpoints to the double's neighbours; the midpoints themselves
count when the mantissa is even.
-/
namespace Intake.Decimal

/-- The positive number `mantissa * 2 ^ exponent`. With `narrow` the neighbour below is half as far
away as the one above. -/
structure Binary where
  mantissa : Nat
  exponent : Int
  narrow : Bool
  deriving DecidableEq, Repr, Inhabited

/-- What a double stands for. -/
inductive Reading where
  | undefined
  | infinite (negative : Bool)
  | zero (negative : Bool)
  | finite (negative : Bool) (magnitude : Binary)
  deriving DecidableEq, Repr, Inhabited

/-- The sign, the exponent and the fraction of a double, put together. -/
def Reading.ofFloat (x : Float) : Reading :=
  let bits := x.toBits.toNat
  let negative := bits / 0x8000000000000000 == 1
  let exponent : Nat := bits / 0x10000000000000 % 0x800
  let fraction : Nat := bits % 0x10000000000000
  if exponent = 2047 then
    if fraction = 0 then .infinite negative else .undefined
  else if exponent = 0 then
    if fraction = 0 then .zero negative else .finite negative ⟨fraction, -1074, false⟩
  else .finite negative ⟨0x10000000000000 + fraction, (Int.ofNat exponent) - 1075, fraction == 0 && 1 < exponent⟩

/-- The number `coefficient * 10 ^ exponent`. -/
structure Scaled where
  coefficient : Nat
  exponent : Int
  deriving DecidableEq, Repr, Inhabited

/-- A power whose exponent counts only as far as it is positive. -/
def power (base : Nat) (exponent : Int) : Nat := Nat.pow base exponent.toNat

/-- The digits of a number in base ten, most significant first. -/
def digits (n : Nat) : List Char := Nat.toDigits 10 n

/-- The power of ten of the leading digit. -/
def Binary.leading (x : Binary) : Int :=
  let shifted := x.mantissa * power 2 x.exponent * power 10 400 / power 2 (-x.exponent)
  (digits shifted).length - 401

/-- The point on the grid `10 ^ k` that stands for the number, if one of its two neighbours there reads
back. Everything is compared after multiplication by a common denominator. -/
def Binary.onGrid? (x : Binary) (k : Int) : Option Scaled :=
  let factor := power 2 (x.exponent - 2) * power 10 (-k)
  let unit := power 10 k * power 2 (2 - x.exponent)
  let value := 4 * x.mantissa * factor
  let low := (4 * x.mantissa - if x.narrow then 1 else 2) * factor
  let high := (4 * x.mantissa + 2) * factor
  let closed := x.mantissa % 2 == 0
  let readsBack (d : Nat) : Bool :=
    (low < d * unit && d * unit < high) || (closed && (d * unit == low || d * unit == high))
  let d := value / unit
  match readsBack d, readsBack (d + 1) with
  | false, false => none
  | true, false => some ⟨d, k⟩
  | false, true => some ⟨d + 1, k⟩
  | true, true =>
    match compare (2 * value) ((2 * d + 1) * unit) with
    | .lt => some ⟨d, k⟩
    | .gt => some ⟨d + 1, k⟩
    | .eq => some ⟨if d % 2 = 0 then d else d + 1, k⟩

/-- The number written out in full. -/
def Binary.exact (x : Binary) : Scaled :=
  ⟨x.mantissa * power 2 x.exponent * power 5 (-x.exponent), min x.exponent 0⟩

/-- The grids of one, two, and up to seventeen digits, coarsest first. -/
def Binary.grids (x : Binary) : List Int :=
  (List.range 17).map fun (n : Nat) => x.leading - Int.ofNat n

/-- The shortest decimal that reads back. -/
def Binary.shortest (x : Binary) : Scaled :=
  (x.grids.findSome? x.onGrid?).getD x.exact

end Intake.Decimal
