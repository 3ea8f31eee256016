import Intake.Overlay.Run
import Intake.Proofs.Extractor.Lenience

/-!
# The fallback law

Which tools run on a document, and what their exit codes amount to. At most three processes are started.
The exit code of the decryption decides nothing, unless it was stopped from outside.
-/
namespace Intake.Overlay

namespace Step

variable {decided r : Int} {code : Nat → Int} {ss : List Step}

end Step

namespace Job

variable {j : Job} {code : Nat → Int}

theorem words_ne_nil (j : Job) (s : Step) : (j.command s).words ≠ [] := by
  cases s <;> simp [command, Step.flag?, recognition, decryption]

variable {send : Option (String → Action Outside Unit)}

end Job
end Intake.Overlay
