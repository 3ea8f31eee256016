import Intake.Decimal.Shortest
import Intake.Fault

/-!
# Values

The free-form data that events carry: what a document in JSON can hold. The members of an object keep
the order in which they were written, and each name occurs once.
-/
namespace Intake

/-- A free-form value. -/
inductive Value where
  | null
  | boolean (b : Bool)
  | integer (n : Int)
  | real (x : Float)
  | text (s : String)
  | list (items : List Value)
  | object (members : List (String × Value))
  deriving Inhabited

abbrev Members : Type := List (String × Value)

namespace Value

mutual

def decEq : (v w : Value) → Decidable (v = w)
  | .null, w => by
    cases w with
    | null => exact isTrue rfl
    | _ => exact isFalse nofun
  | .boolean a, w => by
    cases w with
    | boolean b => exact decidable_of_iff (a = b) (by simp)
    | _ => exact isFalse nofun
  | .integer a, w => by
    cases w with
    | integer b => exact decidable_of_iff (a = b) (by simp)
    | _ => exact isFalse nofun
  | .real a, w => by
    cases w with
    | real b => exact decidable_of_iff (a = b) (by simp)
    | _ => exact isFalse nofun
  | .text a, w => by
    cases w with
    | text b => exact decidable_of_iff (a = b) (by simp)
    | _ => exact isFalse nofun
  | .list a, w => by
    cases w with
    | list b => exact @decidable_of_iff _ (a = b) (by simp) (decEqItems a b)
    | _ => exact isFalse nofun
  | .object a, w => by
    cases w with
    | object b => exact @decidable_of_iff _ (a = b) (by simp) (decEqMembers a b)
    | _ => exact isFalse nofun

def decEqItems : (vs ws : List Value) → Decidable (vs = ws)
  | [], [] => isTrue rfl
  | [], _ :: _ => isFalse nofun
  | _ :: _, [] => isFalse nofun
  | v :: vs, w :: ws =>
    match decEq v w, decEqItems vs ws with
    | isTrue h, isTrue hs => isTrue (by rw [h, hs])
    | isFalse h, _ => isFalse fun e => h (List.cons.inj e).1
    | _, isFalse hs => isFalse fun e => hs (List.cons.inj e).2

def decEqMembers : (vs ws : List (String × Value)) → Decidable (vs = ws)
  | [], [] => isTrue rfl
  | [], _ :: _ => isFalse nofun
  | _ :: _, [] => isFalse nofun
  | v :: vs, w :: ws =>
    match decEqMember v w, decEqMembers vs ws with
    | isTrue h, isTrue hs => isTrue (by rw [h, hs])
    | isFalse h, _ => isFalse fun e => h (List.cons.inj e).1
    | _, isFalse hs => isFalse fun e => hs (List.cons.inj e).2

def decEqMember : (v w : String × Value) → Decidable (v = w)
  | (a, v), (b, w) =>
    match decEq v w with
    | isTrue h => decidable_of_iff (a = b) (by simp [h])
    | isFalse h => isFalse fun e => h (Prod.mk.inj e).2

end

instance : DecidableEq Value := decEq

/-- Whether a value counts as given: everything does but null, false, zeros and what is empty. -/
def truthy : Value → Bool
  | null => false
  | boolean b => b
  | integer n => n != 0
  | real x => !(x == 0.0)
  | text s => s != ""
  | list items => !items.isEmpty
  | object members => !members.isEmpty

/-- What going through a value gives: the items of a list, the characters of a text, the names of an
object. -/
def items : Value → Except Fault (List Value)
  | list items => .ok items
  | text s => .ok (s.toList.map fun c => text (String.singleton c))
  | object members => .ok (members.map fun m => text m.1)
  | _ => .error .noItems

/-- The items of a value that is given, and nothing for one that is not. -/
def itemsIfGiven (v : Value) : Except Fault (List Value) :=
  if v.truthy then v.items else .ok []

/-- The member of an object, null if it has none of the name. -/
def member (name : String) : Value → Except Fault Value
  | object members => .ok ((members.lookup name).getD null)
  | _ => .error .noObject

def asText : Value → Except Fault String
  | text s => .ok s
  | _ => .error .noText

def ofText? : Option String → Value
  | none => null
  | some s => text s

end Value

namespace Members

/-- Sets a member: in its place if there is one of the name, else at the end. -/
def put (name : String) (v : Value) : Members → Members
  | [] => [(name, v)]
  | (n, w) :: rest => if n = name then (n, v) :: rest else (n, w) :: put name v rest

/-- The members given one after another, the last of a name deciding its value. -/
def ofList (ms : List (String × Value)) : Members :=
  ms.foldl (fun all m => all.put m.1 m.2) []

theorem lookup_put (name other : String) (v : Value) (ms : Members) :
    (ms.put name v).lookup other = if other = name then some v else ms.lookup other := by
  induction ms with
  | nil => by_cases h : other = name <;> simp [put, List.lookup_cons, h, beq_false_of_ne]
  | cons m ms ih =>
    obtain ⟨n, w⟩ := m
    by_cases h : n = name
    · subst h
      by_cases ho : other = n <;> simp [put, List.lookup_cons, ho, beq_false_of_ne]
    · by_cases ho : other = n
      · subst ho
        simp [put, h]
      · simp [put, List.lookup_cons, h, ho, beq_false_of_ne, ih]

end Members

end Intake
