import Intake.Value.Same
import Intake.Value.Text

/-!
# Objects from pairs

An object is itself. Anything else that can be gone through makes an object if each of its items is a
pair, of which the first part becomes a name. Of pairs with the same first part the last one counts, in
the place of the first.
-/
namespace Intake.Value

def pairOf (position : Nat) (v : Value) : Except Fault (Value × Value) := do
  match ← v.items with
  | [name, w] => if name.isKey then .ok (name, w) else .error .noKey
  | items => .error (.noPair position items.length)

/-- Sets what stands under a first part, in its place if the same one is there. -/
def putPair (name w : Value) : List (Value × Value) → List (Value × Value)
  | [] => [(name, w)]
  | (n, u) :: rest => if n.same name then (n, w) :: rest else (n, u) :: putPair name w rest

def pairsOf (v : Value) : Except Fault (List (Value × Value)) := do
  let items ← v.items
  let pairs ← items.zipIdx.mapM fun (item, position) => pairOf position item
  return pairs.foldl (fun all p => putPair p.1 p.2 all) []

def nameOf : Value → String
  | .null => "null"
  | .boolean b => if b then "true" else "false"
  | v => v.toText

def toMembers : Value → Except Fault Members
  | .object members => .ok members
  | v => do return Members.ofList ((← pairsOf v).map fun p => (nameOf p.1, p.2))

end Intake.Value
