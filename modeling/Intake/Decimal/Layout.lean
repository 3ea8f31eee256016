import Intake.Decimal.Shortest

/-! # Writing doubles -/
namespace Intake.Decimal

/-- How doubles are laid out: positionally while the power of ten of the leading digit is at least
`plainFrom` and below `plainBelow`, else with an exponent of at least `exponentWidth` digits. -/
structure Layout where
  plainFrom : Int
  plainBelow : Int
  exponentWidth : Nat
  deriving DecidableEq, Repr

def standard : Layout where
  plainFrom := -4
  plainBelow := 16
  exponentWidth := 2

def padLeft (width : Nat) (s : List Char) : List Char :=
  List.replicate (width - s.length) '0' ++ s

def stripZeros (s : List Char) : List Char :=
  (s.reverse.dropWhile (· == '0')).reverse

/-- A signed exponent, such as `e+16` or `e-05`. -/
def Layout.exponent (l : Layout) (e : Int) : List Char :=
  'e' :: (if e < 0 then '-' else '+') :: padLeft l.exponentWidth (digits e.natAbs)

/-- A positive decimal, laid out. A whole number written positionally keeps a zero after its point. -/
def Layout.scaled (l : Layout) (x : Scaled) : List Char :=
  let all := digits x.coefficient
  let shown := stripZeros all
  let leading : Int := x.exponent + all.length - 1
  if l.plainFrom ≤ leading ∧ leading < l.plainBelow then
    if leading < 0 then '0' :: '.' :: padLeft (shown.length + (-leading - 1).toNat) shown
    else
      let whole := leading.toNat + 1
      let fraction := shown.drop whole
      shown.take whole ++ List.replicate (whole - shown.length) '0' ++
        '.' :: (if fraction.isEmpty then ['0'] else fraction)
  else
    match shown with
    | [] => []
    | [c] => c :: l.exponent leading
    | c :: rest => c :: '.' :: rest ++ l.exponent leading

def Layout.render (l : Layout) (x : Float) : String :=
  let signed (negative : Bool) (s : List Char) := String.ofList (if negative then '-' :: s else s)
  match Reading.ofFloat x with
  | .undefined => "nan"
  | .infinite negative => signed negative ['i', 'n', 'f']
  | .zero negative => signed negative ['0', '.', '0']
  | .finite negative magnitude => signed negative (l.scaled magnitude.shortest)

def textOf (x : Float) : String := standard.render x

example : textOf 0.1 = "0.1" := by decide +kernel
example : textOf (0.1 + 0.2) = "0.30000000000000004" := by decide +kernel
example : textOf 1e15 = "1000000000000000.0" ∧ textOf 1e16 = "1e+16" := by decide +kernel
example : textOf 0.0001 = "0.0001" ∧ textOf 0.00001 = "1e-05" := by decide +kernel
example : textOf 5e-324 = "5e-324" ∧ textOf (-0.0) = "-0.0" := by decide +kernel
example : textOf 2.98023223876953125e-8 = "2.9802322387695312e-08" := by decide +kernel

end Intake.Decimal
