import Intake.Proofs.Dispatch.Course
import Mathlib.Data.List.Nodup

/-!
# What a report says

A report sorts the candidates by their outcomes and keeps their order.
-/
namespace Intake

namespace Dispatch

abbrev Outcomes : Type := List (Extractor × Outcome Value)

end Dispatch

namespace Dispatch

def succeeded? (o : Extractor × Outcome Value) : Option String :=
  match o.2 with
  | .success _ => some o.1.name
  | _ => none

def failed? (o : Extractor × Outcome Value) : Option (String × Failure) :=
  match o.2 with
  | .failed f => some (o.1.name, f)
  | _ => none

def interrupted? (o : Extractor × Outcome Value) : Option String :=
  match o.2 with
  | .interrupted _ => some o.1.name
  | _ => none

theorem reported_eq (r : Report) (os : Outcomes) :
    reported r os = { r with
      succeeded := r.succeeded ++ os.filterMap succeeded?
      failed := r.failed ++ os.filterMap failed?
      interrupted := r.interrupted ++ os.filterMap interrupted? } := by
  induction os generalizing r with
  | nil => simp [reported]
  | cons o os ih =>
    obtain ⟨x, o⟩ := o
    show reported (r.add x.name o) os = _
    rw [ih]
    cases o <;> simp [Report.add, List.filterMap_cons, succeeded?, failed?, interrupted?]

theorem perm_reported (os : Outcomes) :
    (os.filterMap succeeded? ++ (os.filterMap failed?).map Prod.fst ++ os.filterMap interrupted?).Perm
      (os.map fun o => o.1.name) := by
  induction os with
  | nil => exact .nil
  | cons o os ih =>
    obtain ⟨x, o⟩ := o
    have hx := ih.cons x.name
    cases o with
    | success v => exact hx
    | failed f =>
      refine .trans ?_ hx
      exact List.perm_middle.append_right (os.filterMap interrupted?)
    | interrupted reason => exact .trans List.perm_middle hx

theorem ended_of_mem {name : String} {os : Outcomes}
    (h : name ∈ os.filterMap succeeded? ∨ name ∈ (os.filterMap failed?).map Prod.fst ∨
      name ∈ os.filterMap interrupted?) : name ∈ os.map fun o => o.1.name := by
  rw [← (perm_reported os).mem_iff, List.append_assoc, List.mem_append, List.mem_append]
  exact h

end Dispatch
end Intake
