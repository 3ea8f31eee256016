import Intake.Value.Text

/-! # Outcomes of attempts -/
namespace Intake

/-- The reasons for which an attempt can fail. -/
inductive FailureKind where
  | subprocessCrashed | badArguments | invalidInput | missingDependency | fileAccess | alreadyRecognised
  | childProcess | encrypted | invalidConfiguration | other | userInterrupt | indexTimeout | unexpected
  deriving DecidableEq, Repr, Inhabited

namespace FailureKind

def name : FailureKind → String
  | subprocessCrashed => "subprocess_crashed"
  | badArguments => "bad_args"
  | invalidInput => "invalid_input"
  | missingDependency => "missing_dependency"
  | fileAccess => "file_access"
  | alreadyRecognised => "already_ocred"
  | childProcess => "child_process"
  | encrypted => "encrypted"
  | invalidConfiguration => "invalid_config"
  | other => "other"
  | userInterrupt => "user_interrupt"
  | indexTimeout => "index_timeout"
  | unexpected => "unexpected"

def all : List FailureKind :=
  [subprocessCrashed, badArguments, invalidInput, missingDependency, fileAccess, alreadyRecognised,
    childProcess, encrypted, invalidConfiguration, other, userInterrupt, indexTimeout, unexpected]

def ofValue (v : Value) : Except Fault FailureKind :=
  match all.find? fun k => v = .text k.name with
  | some k => .ok k
  | none => .error (.unknownName v.literal "FailureKind")

theorem mem_all (k : FailureKind) : k ∈ all := by cases k <;> simp [all]

end FailureKind

/-- A failed attempt. -/
structure Failure where
  kind : FailureKind
  detail : String
  stackTrace : Option String
  deriving DecidableEq, Repr, Inhabited

namespace Failure

def message (f : Failure) : String :=
  if f.detail = "" then f.kind.name else f.kind.name ++ ": " ++ f.detail

/-- The stack trace of a fault, of which only the line that names the fault is certain. -/
def traceOf (e : Fault) : String :=
  "<traceback>\n" ++ e.kind.tracedName ++ (if e.message = "" then "" else ": " ++ e.message) ++ "\n"

/-- The failure that an unforeseen fault amounts to. -/
def unexpected (e : Fault) : Failure where
  kind := .unexpected
  detail := if e.message = "" then e.kind.name else e.message
  stackTrace := some (traceOf e)

end Failure

/-- How an attempt ended. -/
inductive Outcome (α : Type) where
  /-- The attempt reached a conclusion. -/
  | success (value : α)
  /-- The attempt was stopped from outside and is to be made again. -/
  | interrupted (reason : String)
  | failed (failure : Failure)
  deriving DecidableEq, Repr, Inhabited

def Outcome.map {α β : Type} (f : α → β) : Outcome α → Outcome β
  | success a => success (f a)
  | interrupted r => interrupted r
  | failed e => failed e

def Outcome.defaultReason : String := "Subprocess terminated externally"

end Intake
