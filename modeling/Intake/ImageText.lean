import Intake.Command
import Intake.Text.Blank
import Intake.Transcript

/-! # The text of an image -/
namespace Intake.ImageText

/-- The recogniser and the modes it runs in. -/
structure Tool where
  binary : String
  engineMode : Int
  segmentationMode : Int
  deriving DecidableEq, Repr

/-- The recogniser unless something else is asked for. -/
def Tool.standard : Tool := ⟨"tesseract", 1, 3⟩

def Tool.command (t : Tool) (language : String) (image : FilePath) : Command where
  words := [t.binary, image.text, "stdout", "-l", language, "--oem", toString t.engineMode,
    "--psm", toString t.segmentationMode]
  added := []
  directory := none

/-- What a run amounts to, given all lines printed so far. Blank text counts as none. -/
def outcomeOf (r : Command.Result) (printed : String) : Outcome (Option String) :=
  if r.exitCode = Command.terminatedCode then .interrupted "tesseract terminated externally"
  else if r.exitCode ≠ 0 then
    .failed ⟨.subprocessCrashed, "Exit code: " ++ toString r.exitCode ++ ": " ++ printed, none⟩
  else .success (if Text.isBlankText r.stdout then none else some r.stdout)

/-- Reads an image in a language. -/
def recognise (t : Tool) (language : String) (image : FilePath)
    (sink : String → Action (Outside × Transcript) Unit) :
    Action (Outside × Transcript) (Outcome (Option String)) := do
  let r ← (t.command language image).run sink
  let printed ← .second .get
  return outcomeOf r printed.text

end Intake.ImageText
