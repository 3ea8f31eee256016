import Intake.Text.Blank
import Intake.Text.Digit

/-!
# Reading numerals

Numerals may have blanks around them, the information separators excepted, a sign, digits of any
script, and single underscores between digits.
-/
namespace Intake.Decimal

/-- The largest number of digits an integer numeral may have. -/
def maxDigits : Nat := 4300

/-- Why a text is no integer numeral. -/
inductive NumeralError where
  | malformed
  | tooLong (digits : Nat)
  deriving DecidableEq, Repr

/-- A character of a numeral in plain form: digits as those of ASCII, blanks beyond ASCII as spaces. -/
def plain (c : Char) : Char :=
  if c.toNat < 128 then c
  else match Text.digit? c with
    | some d => Nat.digitChar d
    | none => if Text.isBlank c then ' ' else '?'

/-- The blanks of ASCII that may surround a numeral. -/
def isMargin (c : Char) : Bool := c = ' ' || (9 ≤ c.toNat && c.toNat ≤ 13)

/-- A numeral in plain form, without the blanks around it. -/
def trimmed (s : String) : List Char :=
  (((s.toList.map plain).dropWhile isMargin).reverse.dropWhile isMargin).reverse

/-- Whether there is a minus sign in front, and what follows the sign. -/
def splitSign : List Char → Bool × List Char
  | '-' :: rest => (true, rest)
  | '+' :: rest => (false, rest)
  | s => (false, s)

/-- The digits up to the first other character, underscores between digits left out. -/
def digitRun : (afterDigit : Bool) → List Char → Option (List Char × List Char)
  | afterDigit, [] => if afterDigit then some ([], []) else none
  | afterDigit, c :: rest =>
    if c = '_' then
      if afterDigit then digitRun false rest else none
    else if c.isDigit then (digitRun true rest).map fun (ds, rest) => (c :: ds, rest)
    else if afterDigit then some ([], c :: rest) else none

def valueOf (ds : List Char) : Nat := ds.foldl (fun n c => n * 10 + (c.toNat - 48)) 0

def integer (s : String) : Except NumeralError Int :=
  let (negative, body) := splitSign (trimmed s)
  match digitRun false body with
  | none => .error .malformed
  | some (ds, rest) =>
    if maxDigits < ds.length then .error (.tooLong ds.length)
    else if rest.isEmpty then .ok (if negative then -(valueOf ds : Int) else valueOf ds)
    else .error .malformed

/-- Leaves out the underscores, each of which must stand between digits. -/
def dropUnderscores : (afterDigit : Bool) → List Char → Option (List Char)
  | _, [] => some []
  | afterDigit, c :: rest =>
    if c = '_' then
      if afterDigit ∧ (rest.head?.map Char.isDigit).getD false then dropUnderscores false rest else none
    else (dropUnderscores c.isDigit rest).map (c :: ·)

/-- The double nearest to `coefficient * 10 ^ exponent`. Far outside of the range of doubles the
coefficient does not matter. -/
def nearest (coefficient : Nat) (exponent : Int) : Float :=
  let leading : Int := exponent + (Nat.toDigits 10 coefficient).length
  if coefficient = 0 ∨ leading < -400 then 0.0
  else if 400 < leading then Float.ofBits 0x7FF0000000000000
  else Float.ofScientific coefficient (decide (exponent < 0)) exponent.natAbs

/-- The exponent part of a numeral, nothing standing for zero. -/
def exponentPart? : List Char → Option Int
  | [] => some 0
  | c :: rest =>
    let (negative, ds) := splitSign rest
    if (c = 'e' ∨ c = 'E') ∧ !ds.isEmpty ∧ ds.all Char.isDigit then
      some (if negative then -(valueOf ds : Int) else valueOf ds)
    else none

/-- A numeral without sign: digits with a point among them, before them or after them, and an exponent. -/
def unsigned? (s : List Char) : Option Float :=
  let whole := s.takeWhile Char.isDigit
  let (fraction, rest) := match s.dropWhile Char.isDigit with
    | '.' :: rest => (rest.takeWhile Char.isDigit, rest.dropWhile Char.isDigit)
    | rest => ([], rest)
  if whole.isEmpty ∧ fraction.isEmpty then none
  else (exponentPart? rest).map fun e => nearest (valueOf (whole ++ fraction)) (e - fraction.length)

/-- The words for what is no finite number, in any case. -/
def word? (s : List Char) : Option Float :=
  let s := s.map Char.toLower
  if s = ['i', 'n', 'f'] ∨ s = ['i', 'n', 'f', 'i', 'n', 'i', 't', 'y'] then
    some (Float.ofBits 0x7FF0000000000000)
  else if s = ['n', 'a', 'n'] then some (Float.ofBits 0x7FF8000000000000)
  else none

def float? (s : String) : Option Float :=
  (dropUnderscores false (trimmed s)).bind fun s =>
    let (negative, body) := splitSign s
    ((word? body).or (unsigned? body)).map fun x => if negative then -x else x

example : float? " 1_0.5e-1 " = some 1.05 := by decide +kernel
example : float? "1e400" = float? "Infinity" ∧ float? "." = none ∧ float? "1__0" = none := by decide +kernel
example : integer "-0_7" = .ok (-7) ∧ integer "7_" = .error .malformed := ⟨rfl, rfl⟩

end Intake.Decimal
