import Intake.Overlay.Policy

/-! # Putting a text layer into a document -/
namespace Intake.Overlay

/-- The tools the work is done with. -/
structure Tools where
  recogniser : String
  decrypter : String
  deriving DecidableEq, Repr

def Tools.standard : Tools := ⟨"ocrmypdf", "qpdf"⟩

/-- A document to put a text layer into, and where its copies may go. -/
structure Job where
  tools : Tools
  language : String
  input : FilePath
  scratch : FilePath
  dpi : Option Int
  deriving DecidableEq

namespace Job

def output (j : Job) : FilePath := j.scratch.child (j.input.name ++ ".ocr.pdf")

def decrypted (j : Job) : FilePath := j.scratch.child (j.input.name ++ ".decrypt.pdf")

/-- The resolution as the recogniser is told it, which it is unless it is zero. -/
def resolution (j : Job) : List String :=
  match j.dpi with
  | none => []
  | some dpi => if dpi = 0 then [] else ["--image-dpi", toString dpi]

/-- The command that reads the pages of a document. Its own temporary files go where the copies go. -/
def recognition (j : Job) (flag : String) (source : FilePath) : Command where
  words := [j.tools.recogniser, flag, "-l", j.language] ++ j.resolution ++
    [source.absolute.text, j.output.absolute.text]
  added := [("TMPDIR", j.scratch.absolute.text)]
  directory := none

/-- The command that removes the protection of a document. -/
def decryption (j : Job) : Command where
  words := [j.tools.decrypter, "--decrypt", j.input.absolute.text, j.decrypted.absolute.text]
  added := []
  directory := none

def command (j : Job) (s : Step) : Command :=
  match s.flag? with
  | none => j.decryption
  | some flag => j.recognition flag (if s = .redoDecrypted then j.decrypted else j.input)

/-- Takes the steps from one on, and gives the exit code that decides. -/
def steps {τ : Type} (j : Job) (sink : String → Action (Outside × τ) Unit) (s : Step) (decided : Int) :
    Action (Outside × τ) Int :=
  if h : s = .done then pure decided
  else do
    let r ← (j.command s).run sink
    have := Step.rank_next_lt h r.exitCode
    steps j sink (s.next r.exitCode) (s.deciding r.exitCode decided)
termination_by s.rank

def run {τ : Type} (j : Job) (sink : String → Action (Outside × τ) Unit) :
    Action (Outside × τ) (Outcome FilePath) := do
  let code ← j.steps sink .redo 0
  return outcomeOf code j.output

end Job

end Intake.Overlay
