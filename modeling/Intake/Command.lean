import Intake.Outside
import Intake.Text.Newline
import Intake.Text.Utf8

/-!
# Running a tool

A tool runs to its end. What it writes to its standard output is kept whole; what it writes to its
standard error is handed to a sink line by line. A sink that raises a fault gets the tool killed, unless the
tool has exited by itself.
-/
namespace Intake

/-- A tool and how to start it. -/
structure Command where
  words : List String
  /-- Variables on top of the inherited environment. -/
  added : List (String × String)
  directory : Option FilePath
  deriving DecidableEq

namespace Command

/-- The exit code of what was terminated from outside. -/
def terminatedCode : Int := 143

/-- The exit code that stands for a tool that does not exist. -/
def notFoundCode : Int := 127

/-- An exit code from an exit status: death by a signal counts up from 128. -/
def exitCodeOf (status : Int) : Int := if status < 0 then 128 - status else status

/-- What a run leaves. -/
structure Result where
  exitCode : Int
  stdout : String
  deriving DecidableEq, Repr, Inhabited

def Result.wasTerminated (r : Result) : Bool := r.exitCode == terminatedCode

def layered (base added : List (String × String)) : List (String × String) :=
  base.filter (fun v => !added.any fun a => a.1 == v.1) ++ added

def call (c : Command) (environment : List (String × String)) : Call where
  words := c.words
  environment := if c.added.isEmpty then none else some (layered environment c.added)
  directory := c.directory

def textOf (bytes : List UInt8) : List Char := Text.unifyBreaks (Text.Utf8.decode bytes)

def linesOf (bytes : List UInt8) : List String := (Text.lines (textOf bytes)).map String.ofList

def deliver {σ : Type} (sink : String → Action σ Unit) : List String → Action σ Unit
  | [] => pure ()
  | line :: rest => do
    sink line
    deliver sink rest

/-- Names the tool in a message to operators, for which there has to be a first word. -/
def nameTool {σ : Type} (c : Command) : Action σ Unit :=
  if c.words.isEmpty then .fail .emptyCommand else pure ()

/-- Sees to it that the tool is not left behind: it is killed unless it has exited. -/
def stop {τ : Type} (c : Command) : Action (Outside × τ) Unit := do
  if ← .first Outside.nextPoll then pure ()
  else
    c.nameTool
    .first (.modify (Outside.log .killed))

def run {τ : Type} (c : Command) (sink : String → Action (Outside × τ) Unit) :
    Action (Outside × τ) Result := do
  let w ← .first .get
  let p ← .first Outside.nextRun
  .first (.modify (Outside.log (.started (c.call w.environment))))
  match p.startFault with
  | some e =>
    if e.kind = .fileNotFound then
      c.nameTool
      sink e.message
      return ⟨notFoundCode, ""⟩
    else .fail e
  | none =>
    (deliver sink (linesOf p.stderr)).onFault fun e => do
      c.stop
      .fail e
    match p.stdoutFault with
    | some text => .fail (.raised .os text)
    | none => return ⟨exitCodeOf p.exitStatus, String.ofList (textOf p.stdout)⟩

theorem exitCodeOf_eq_terminatedCode_iff (status : Int) :
    exitCodeOf status = terminatedCode ↔ status = -15 ∨ status = 143 := by
  unfold exitCodeOf terminatedCode
  split <;> omega

end Command

end Intake
