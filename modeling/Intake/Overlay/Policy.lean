import Intake.Command

/-!
# The fallback policy of the text overlay

Which step follows which exit code, and what the exit code that decides amounts to. A document is first
read with its text layer redone. If it is refused as input, pages with text are skipped; if it is
encrypted, it is decrypted and read again. No step comes twice.
-/
namespace Intake.Overlay

/-- A step of putting a text layer into a document. -/
inductive Step where
  | redo
  | skipText
  | decrypt
  | redoDecrypted
  | done
  deriving DecidableEq, Repr, Inhabited

namespace Step

def name : Step → String
  | redo => "redo_ocr"
  | skipText => "skip_text"
  | decrypt => "decrypt"
  | redoDecrypted => "redo_ocr_decrypted"
  | done => "done"

def all : List Step := [redo, skipText, decrypt, redoDecrypted, done]

def ofValue (v : Value) : Except Fault Step :=
  match all.find? fun s => v = .text s.name with
  | some s => .ok s
  | none => .error (.unknownName v.literal "OverlayStep")

/-- How a step treats pages with text, if it reads pages. -/
def flag? : Step → Option String
  | redo | redoDecrypted => some "--redo-ocr"
  | skipText => some "--skip-text"
  | decrypt | done => none

/-- The exit code for a document that cannot be read as one. -/
def inputErrorCode : Int := 2

/-- The exit code for an encrypted document. -/
def encryptedCode : Int := 8

/-- The step after one that ended with an exit code. -/
def next : Step → Int → Step
  | redo, code =>
    if code = inputErrorCode then skipText
    else if code = encryptedCode then decrypt
    else done
  | decrypt, code => if code = 0 then redoDecrypted else done
  | _, _ => done

/-- The exit code that decides after a step. That of a decryption does so only if it was stopped from
outside. -/
def deciding (s : Step) (code before : Int) : Int :=
  if s = decrypt ∧ code ≠ Command.terminatedCode then before else code

/-- A bound on the steps still to come. -/
def rank : Step → Nat
  | redo => 3
  | decrypt => 2
  | skipText | redoDecrypted => 1
  | done => 0

theorem rank_next_lt {s : Step} (h : s ≠ done) (code : Int) : (s.next code).rank < s.rank := by
  cases s with
  | redo => simp only [next]; split; decide; split <;> decide
  | decrypt => simp only [next]; split <;> decide
  | skipText | redoDecrypted => exact Nat.one_pos
  | done => exact absurd rfl h

theorem mem_all (s : Step) : s ∈ all := by cases s <;> simp [all]

end Step

/-- The exit codes after which a usable document is there. -/
def successCodes : List Int := [0, 4, 10]

def failureCodes : List (Int × FailureKind × String) :=
  [(1, .badArguments, "Invalid arguments, exited with an error."),
    (2, .invalidInput, "The input file does not seem to be a valid PDF."),
    (3, .missingDependency, "An external program required by OCRmyPDF is missing."),
    (5, .fileAccess, "Insufficient permissions to read the input file or write the output file."),
    (6, .alreadyRecognised, "The file already appears to contain text so it may not need OCR."),
    (7, .childProcess,
      "An error occurred in an external program (child process) and OCRmyPDF cannot continue."),
    (8, .encrypted, "The input PDF is encrypted and could not be decrypted."),
    (9, .invalidConfiguration, "Tesseract rejected the custom configuration file."),
    (15, .other, "Some other error occurred."),
    (130, .userInterrupt, "The program was interrupted by pressing Ctrl+C.")]

/-- What the deciding exit code amounts to. A code that is neither success nor failure means that the
work was stopped from outside. -/
def outcomeOf {α : Type} (code : Int) (output : α) : Outcome α :=
  if code ∈ successCodes then .success output
  else match failureCodes.lookup code with
    | some (kind, reason) =>
      .failed ⟨kind, reason ++ " (exit code " ++ toString code ++ ")", none⟩
    | none => .interrupted ("ocrmypdf exited with " ++ toString code)

end Intake.Overlay
