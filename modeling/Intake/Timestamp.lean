/-!
# Moments

A moment is what a wall clock showed, and how far that clock was set from universal time if that is
known. Wall clocks are counted in microseconds from the start of the year one.
-/
namespace Intake

/-- What a wall clock shows, in microseconds from the start of the year one. -/
abbrev WallTime : Type := Nat

namespace Calendar

def daysBeforeYear (year : Nat) : Nat :=
  let y := year - 1
  y * 365 + y / 4 - y / 100 + y / 400

def isLeap (year : Nat) : Bool := year % 4 == 0 && (year % 100 != 0 || year % 400 == 0)

def monthLengths (year : Nat) : List Nat :=
  [31, if isLeap year then 29 else 28, 31, 30, 31, 30, 31, 31, 30, 31, 30, 31]

def daysBeforeMonth (year month : Nat) : Nat := ((monthLengths year).take (month - 1)).foldl Nat.add 0

/-- The number of a day, counted from zero on the first day of the year one. -/
def dayNumber (year month day : Nat) : Nat :=
  daysBeforeYear year + daysBeforeMonth year month + (day - 1)

/-- The year in which a numbered day lies: cycles of four hundred years, of one hundred, of four, and
single years. The last day of a cycle belongs to its last year. -/
def yearOf (day : Nat) : Nat :=
  let n400 := day / 146097
  let d := day % 146097
  let n100 := min (d / 36524) 3
  let d := d - n100 * 36524
  let n4 := d / 1461
  let d := d % 1461
  let n1 := min (d / 365) 3
  n400 * 400 + n100 * 100 + n4 * 4 + n1 + 1

/-- The month and the day of the month, both from one, of a day of the year counted from zero. -/
def monthOf : (month : Nat) → List Nat → (day : Nat) → Nat × Nat
  | month, [], day => (month, day + 1)
  | month, length :: rest, day =>
    if day < length ∨ rest = [] then (month, day + 1) else monthOf (month + 1) rest (day - length)

def dateOf (day : Nat) : Nat × Nat × Nat :=
  let year := yearOf day
  (year, monthOf 1 (monthLengths year) (day - daysBeforeYear year))

end Calendar

/-- A moment on a wall clock, and the offset of that clock in seconds. -/
structure Timestamp where
  wall : WallTime
  offset : Option Int
  deriving DecidableEq, Repr, Inhabited

namespace Timestamp

/-- Whether two moments can be put in order: both have an offset, or neither has. -/
def Comparable (s t : Timestamp) : Prop := s.offset.isSome = t.offset.isSome

instance (s t : Timestamp) : Decidable (Comparable s t) := inferInstanceAs (Decidable (_ = _))

/-- The place of a moment among the moments comparable to it. -/
def instant (t : Timestamp) : Int := (t.wall : Int) - t.offset.getD 0 * 1000000

def withoutOffset (w : WallTime) : Timestamp := ⟨w, none⟩

def padded (width n : Nat) : String :=
  let s := Nat.toDigits 10 n
  String.ofList (List.replicate (width - s.length) '0' ++ s)

/-- An offset as hours and minutes, with seconds where there are any. -/
def offsetText (offset : Int) : String :=
  let n := offset.natAbs
  (if offset < 0 then "-" else "+") ++ padded 2 (n / 3600) ++ ":" ++ padded 2 (n / 60 % 60) ++
    (if n % 60 = 0 then "" else ":" ++ padded 2 (n % 60))

/-- What a wall clock shows. A fraction of a second is written in six digits, and only if there is one. -/
def wallText (w : WallTime) : String :=
  let seconds := w / 1000000
  let fraction := w % 1000000
  let (year, month, day) := Calendar.dateOf (seconds / 86400)
  padded 4 year ++ "-" ++ padded 2 month ++ "-" ++ padded 2 day ++ "T" ++
    padded 2 (seconds / 3600 % 24) ++ ":" ++ padded 2 (seconds / 60 % 60) ++ ":" ++ padded 2 (seconds % 60) ++
    (if fraction = 0 then "" else "." ++ padded 6 fraction)

def text (t : Timestamp) : String :=
  wallText t.wall ++ match t.offset with
    | none => ""
    | some o => offsetText o

/-- A number of exactly `width` digits in front of a text. -/
def number? : (width : Nat) → List Char → Option (Nat × List Char)
  | 0, s => some (0, s)
  | _ + 1, [] => none
  | width + 1, c :: s =>
    if c.isDigit then
      (number? width s).map fun (n, rest) => ((c.toNat - 48) * Nat.pow 10 width + n, rest)
    else none

def mark? (c : Char) : List Char → Option (List Char)
  | d :: rest => if d = c then some rest else none
  | [] => none

/-- A fraction of a second, in microseconds, of one to six digits after a point. -/
def fraction? : List Char → Option (Nat × List Char)
  | '.' :: rest =>
    let ds := rest.takeWhile Char.isDigit
    if 1 ≤ ds.length ∧ ds.length ≤ 6 then
      (number? ds.length rest).map fun (n, rest) => (n * Nat.pow 10 (6 - ds.length), rest)
    else none
  | s => some (0, s)

def offset? : List Char → Option (Option Int)
  | [] => some none
  | ['Z'] => some (some 0)
  | sign :: rest => do
    let factor ← if sign = '+' then some 1 else if sign = '-' then some (-1) else none
    let (hours, rest) ← number? 2 rest
    let (minutes, rest) ← number? 2 (← mark? ':' rest)
    let seconds ← match rest with
      | [] => some 0
      | _ => do
        let (seconds, rest) ← number? 2 (← mark? ':' rest)
        if rest.isEmpty then some seconds else none
    return some (factor * ((hours * 3600 + minutes * 60 + seconds : Nat) : Int))

def ofString? (s : String) : Option Timestamp := do
  let (year, rest) ← number? 4 s.toList
  let (month, rest) ← number? 2 (← mark? '-' rest)
  let (day, rest) ← number? 2 (← mark? '-' rest)
  let (hour, rest) ← number? 2 (← mark? 'T' rest)
  let (minute, rest) ← number? 2 (← mark? ':' rest)
  let (second, rest) ← number? 2 (← mark? ':' rest)
  let (micro, rest) ← fraction? rest
  let offset ← offset? rest
  let day := Calendar.dayNumber year month day
  return ⟨(((day * 24 + hour) * 60 + minute) * 60 + second) * 1000000 + micro, offset⟩

example : (ofString? "2024-02-29T23:59:59.5-05:30").map text = some "2024-02-29T23:59:59.500000-05:30" := by
  decide +kernel
example : (ofString? "0400-12-31T00:00:00Z").map text = some "0400-12-31T00:00:00+00:00" := by decide +kernel

end Timestamp

end Intake
