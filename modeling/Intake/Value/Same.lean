import Intake.Value.Basic

/-!
# Sameness of values

Two values are the same when they have one canonical form. In it truth values are the numbers zero and
one, doubles without fraction are whole numbers, and the members of objects are in the order of their
names. So sameness is an equivalence, coarser than equality.
-/
namespace Intake.Value

def whole? (x : Float) : Option Int :=
  match Decimal.Reading.ofFloat x with
  | .zero _ => some 0
  | .finite negative m =>
    let divisor := Decimal.power 2 (-m.exponent)
    if m.mantissa % divisor = 0 then
      let n : Int := Int.ofNat (m.mantissa * Decimal.power 2 m.exponent / divisor)
      some (if negative then -n else n)
    else none
  | _ => none

/-- Puts a member before the first one with a larger name. -/
def insertMember (name : String) (v : Value) : Members → Members
  | [] => [(name, v)]
  | (n, w) :: rest => if n < name then (n, w) :: insertMember name v rest else (name, v) :: (n, w) :: rest

mutual

def canonical : Value → Value
  | .null => .null
  | .boolean b => .integer (if b then 1 else 0)
  | .integer n => .integer n
  | .real x => match whole? x with
    | some n => .integer n
    | none => .real x
  | .text s => .text s
  | .list items => .list (canonicalItems items)
  | .object members => .object (canonicalMembers members)

def canonicalItems : List Value → List Value
  | [] => []
  | v :: vs => canonical v :: canonicalItems vs

/-- The members of an object in canonical form and order. -/
def canonicalMembers : List (String × Value) → List (String × Value)
  | [] => []
  | m :: ms => insertMember (canonicalMember m).1 (canonicalMember m).2 (canonicalMembers ms)

def canonicalMember : String × Value → String × Value
  | (name, v) => (name, canonical v)

end

def same (v w : Value) : Bool := v.canonical = w.canonical

theorem same_iff {v w : Value} : v.same w = true ↔ v.canonical = w.canonical := by simp [same]

@[simp] theorem same_refl (v : Value) : v.same v = true := by simp [same]

theorem same_comm (v w : Value) : v.same w = w.same v := by
  simp only [same, eq_comm]

theorem same_trans {u v w : Value} (h : u.same v = true) (h' : v.same w = true) : u.same w = true := by
  rw [same_iff] at *
  exact h.trans h'

/-- Whether a value can be told apart from others by its contents alone: lists and objects cannot. -/
def isKey : Value → Bool
  | list _ | object _ => false
  | _ => true

def isAmong (v : Value) (vs : List Value) : Bool := vs.any v.same

/-- The values of a list, each once, where it stands first. -/
def distinct (vs : List Value) : List Value :=
  vs.foldl (fun seen v => if v.isAmong seen then seen else seen ++ [v]) []

example : same (.integer 1) (.boolean true) = true ∧ same (.real 1.0) (.integer 1) = true := by decide +kernel
example : same (.real (-0.0)) (.boolean false) = true ∧ same (.real 0.5) (.integer 0) = false := by
  decide +kernel

end Intake.Value
