import Intake.Action
import Intake.FilePath
import Intake.Outcome

/-!
# The outside

Processes, clock, search index, object storage and so on, as one piece of work meets them: what they
will answer, in order, and a journal of what was asked of them.
-/
namespace Intake

/-- How one run of a tool will go, if it can be started. -/
structure ToolRun where
  exitStatus : Int
  stdout : List UInt8
  stderr : List UInt8
  /-- Why it cannot be started. An operating system that starts nothing from an empty command says so here. -/
  startFault : Option Fault
  stdoutFault : Option String
  deriving DecidableEq, Repr

/-- A run that writes nothing and succeeds. -/
def ToolRun.quiet : ToolRun := ⟨0, [], [], none, none⟩

/-- What a collaborator does when it is called. One that fails has taken nothing; one that takes what it is
given and fails all the same is not among these. -/
inductive Reply where
  | done
  /-- It never comes back. Only the search index is waited for with a limit. The object storage and the notifier
  are taken to come back, and there this is no different from `done`. -/
  | silence
  | fails (e : Fault)
  deriving DecidableEq, Repr, Inhabited

/-- A process as it was asked for. Without variables of its own it inherits the environment. -/
structure Call where
  words : List String
  environment : Option (List (String × String))
  directory : Option FilePath
  deriving DecidableEq

/-- Text for the search index, null where nothing was recognised. -/
structure Document where
  blob : String
  text : Option String
  language : String
  deriving DecidableEq, Repr

/-- A sign of life of a long attempt, and whom it is about if that was said. -/
structure Note where
  subject : Option (String × String)
  text : String
  deriving DecidableEq, Repr

/-- One thing that happened outside. -/
inductive Entry where
  /-- An extractor was set to work. -/
  | invoked (extractor : String)
  | started (call : Call)
  /-- The process started last was killed. -/
  | killed
  | indexed (document : Document)
  | stored (key : String) (path : FilePath)
  | noted (note : Note)
  | noteRefused (note : Note)
  | directoryMade (path : FilePath)
  /-- A temporary directory came into being, and went. -/
  | scratchOpened (path : String)
  | scratchCleaned (path : String)
  deriving DecidableEq

/-- What the outside will answer, and what it was asked. -/
structure Outside where
  runs : List ToolRun
  /-- Whether a tool has exited, each time that is asked. Without an answer it has not. -/
  polls : List Bool := []
  /-- The readings of the clock; the last one stays. -/
  clock : List Float
  index : List Reply
  storage : List Reply
  notifier : List Reply
  filesExist : Bool
  environment : List (String × String)
  /-- What the extractors that work elsewhere will answer, each by its name. -/
  results : List (String × List (Except Fault (Outcome Value)))
  journal : List Entry

namespace Outside

/-- An outside where everything goes well. -/
def calm : Outside := ⟨[], [], [], [], [], [], true, [], [], []⟩

def log (e : Entry) (w : Outside) : Outside := { w with journal := w.journal ++ [e] }

/-- Takes the next answer, the default when none is left. -/
def pop {α : Type} (default : α) : List α → α × List α
  | [] => (default, [])
  | a :: rest => (a, rest)

/-- Takes the next answer of which the last one stays. -/
def popKeeping {α : Type} (default : α) : List α → α × List α
  | [] => (default, [])
  | [a] => (a, [a])
  | a :: rest => (a, rest)

def nextRun : Action Outside ToolRun :=
  .take fun w => ((pop ToolRun.quiet w.runs).1, { w with runs := (pop ToolRun.quiet w.runs).2 })

/-- Asks whether the tool started last has exited. -/
def nextPoll : Action Outside Bool :=
  .take fun w => ((pop false w.polls).1, { w with polls := (pop false w.polls).2 })

def readClock : Action Outside Float :=
  .take fun w => ((popKeeping 0.0 w.clock).1, { w with clock := (popKeeping 0.0 w.clock).2 })

def nextIndexReply : Action Outside Reply :=
  .take fun w => ((pop Reply.done w.index).1, { w with index := (pop Reply.done w.index).2 })

def nextStorageReply : Action Outside Reply :=
  .take fun w => ((pop Reply.done w.storage).1, { w with storage := (pop Reply.done w.storage).2 })

def nextNotifierReply : Action Outside Reply :=
  .take fun w => ((pop Reply.done w.notifier).1, { w with notifier := (pop Reply.done w.notifier).2 })

/-- Asks the search index to take a document. The answer is whether it came back. -/
def addDocument (d : Document) : Action Outside Bool := do
  match ← nextIndexReply with
  | .done =>
    .modify (log (.indexed d))
    return true
  | .silence => return false
  | .fails e => .fail e

/-- Hands a file to the object storage, which comes back with or without a fault. -/
def putObject (key : String) (path : FilePath) : Action Outside Unit := do
  match ← nextStorageReply with
  | .fails e => .fail e
  | _ => .modify (log (.stored key path))

/-- Hands a sign of life to the notifier, which comes back with or without a fault. -/
def sendNote (n : Note) : Action Outside Unit := do
  match ← nextNotifierReply with
  | .fails e =>
    .modify (log (.noteRefused n))
    .fail e
  | _ => .modify (log (.noted n))

def makeDirectory (p : FilePath) : Action Outside Unit := .modify (log (.directoryMade p))

/-- The number of temporary directories opened so far. -/
def scratchCount (w : Outside) : Nat :=
  w.journal.countP fun
    | .scratchOpened _ => true
    | _ => false

/-- The name of a temporary directory below another one. A root ends in a slash already. -/
def scratchName (root : FilePath) (n : Nat) : String :=
  root.text ++ (if root.root ≠ .none ∧ root.components = [] then "" else "/") ++ "tmp" ++ toString n

/-- Lets an action use a fresh temporary directory, which goes when the action ends. -/
def withScratch {τ α : Type} (root : FilePath) (use : FilePath → Action (Outside × τ) α) :
    Action (Outside × τ) α := do
  let w ← .first .get
  let name := scratchName root w.scratchCount
  .first (.modify (log (.scratchOpened name)))
  (use (FilePath.ofString name)).andThen fun s => (s.1.log (.scratchCleaned name), s.2)

/-- The next answer of an extractor that works elsewhere. -/
def nextResult (name : String) : Action Outside (Outcome Value) := do
  let w ← .get
  let next := popKeeping (.ok (.success .null)) ((w.results.lookup name).getD [])
  .set { w with results := (name, next.2) :: w.results.filter fun r => r.1 != name }
  .ofExcept next.1

/-- The processes of a journal and whether each was killed. -/
def callsOf : List Entry → List (Call × Bool)
  | [] => []
  | .started c :: rest =>
    let killed := match rest.find? fun | .started _ | .killed => true | _ => false with
      | some .killed => true
      | _ => false
    (c, killed) :: callsOf rest
  | _ :: rest => callsOf rest

/-- The processes started so far, and whether each was killed. -/
def calls (w : Outside) : List (Call × Bool) := callsOf w.journal

def documents (w : Outside) : List Document :=
  w.journal.filterMap fun | .indexed d => some d | _ => none

def objects (w : Outside) : List (String × FilePath) :=
  w.journal.filterMap fun | .stored key path => some (key, path) | _ => none

def notes (w : Outside) : List Note :=
  w.journal.filterMap fun | .noted n => some n | _ => none

/-- The signs of life that were to be passed on, refused ones included. -/
def attemptedNotes (w : Outside) : List Note :=
  w.journal.filterMap fun | .noted n | .noteRefused n => some n | _ => none

def directories (w : Outside) : List FilePath :=
  w.journal.filterMap fun | .directoryMade p => some p | _ => none

/-- The temporary directories opened so far, and whether each is gone. -/
def scratchDirectories (w : Outside) : List (String × Bool) :=
  (w.journal.filterMap fun | .scratchOpened p => some p | _ => none).map fun p =>
    (p, w.journal.contains (.scratchCleaned p))

@[simp] theorem journal_log (e : Entry) (w : Outside) : (w.log e).journal = w.journal ++ [e] := rfl

theorem documents_log (e : Entry) (w : Outside) :
    (w.log e).documents = w.documents ++ (match e with | .indexed d => [d] | _ => []) := by
  cases e <;> simp [documents]

theorem objects_log (e : Entry) (w : Outside) :
    (w.log e).objects = w.objects ++ (match e with | .stored k p => [(k, p)] | _ => []) := by
  cases e <;> simp [objects]

end Outside

end Intake
