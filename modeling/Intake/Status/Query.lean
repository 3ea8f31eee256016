import Intake.EventLog.Basic
import Intake.Status.Reconstruct

/-! # Asking a log for statuses -/
namespace Intake

/-- The statuses of the blobs in a scope, from all that the log holds about it. -/
def EventLog.statuses {σ : Type} (log : EventLog σ) (scope : Scope) (threshold : Int) :
    Action σ (List BlobStatus) := do
  let es ← log.events scope
  let rs ← log.sightings scope
  .ofExcept (Status.reconstruct es rs threshold)

end Intake
