import Intake.EventLog.Basic
import Intake.Extractor.Basic

/-!
# Dispatching a blob

Every extractor that can process a blob runs on it, the cheapest first, and the log is told about each
start and each end. An attempt that was stopped from outside has no end, so that it will be made again.
-/
namespace Intake

/-- What happened to a blob. -/
structure Report where
  blobId : String
  extractors : List String
  succeeded : List String
  failed : List (String × Failure)
  interrupted : List String
  deriving DecidableEq, Repr, Inhabited

namespace Report

/-- The report of a blob on which nothing has run yet. -/
def start (blobId : String) (extractors : List String) : Report := ⟨blobId, extractors, [], [], []⟩

def ok (r : Report) : Bool := r.failed.isEmpty

def hasPendingRetry (r : Report) : Bool := !r.interrupted.isEmpty

def add (name : String) (o : Outcome Value) (r : Report) : Report :=
  match o with
  | .success _ => { r with succeeded := r.succeeded ++ [name] }
  | .interrupted _ => { r with interrupted := r.interrupted ++ [name] }
  | .failed f => { r with failed := r.failed ++ [(name, f)] }

end Report

namespace Dispatch

variable {σ : Type}

/-- The event that a blob was found to be of a media type that extractors can process. -/
def detected (b : Blob) (p : Params) (extractors : List String) : Event :=
  .mimeTypeDetected (some b.id) (some p.ingestId) b.mimeType (extractors.map .text) p.workspace

/-- The event that an extractor changed its state on a blob. -/
def ran (b : Blob) (p : Params) (name : String) (s : EventStatus) (errors : List EventError) : Event :=
  .runExtractor (some b.id) (some p.ingestId) name s errors

def errorOf (f : Failure) : EventError := ⟨f.message, Value.ofText? f.stackTrace⟩

def record (log : EventLog σ) (e : Event) : Action (σ × Outside) Unit := .first (log.insertEvent e)

/-- What is done about a fault of an extractor. A missing parameter closes the attempt and goes on; so do
faults of the log and the demand to stop, without closing it; any other fault is a failure. -/
def settle (log : EventLog σ) (b : Blob) (p : Params) (name : String) (e : Fault) :
    Action (σ × Outside) (Outcome Value) :=
  if e.kind = .missingParameter then do
    record log (ran b p name .failure [⟨e.message, .null⟩])
    .fail e
  else if e.kind.isStorage then .fail e
  else if e.kind.isOrdinary then return .failed (Failure.unexpected e)
  else .fail e

/-- Tells the log that an extractor starts, and runs it. -/
def attempt (log : EventLog σ) (x : Extractor) (b : Blob) (path : FilePath) (p : Params) :
    Action (σ × Outside) (Outcome Value) := do
  record log (ran b p x.name .started [])
  .second (.modify (Outside.log (.invoked x.name)))
  (Action.second (x.extract b path p)).onFault (settle log b p x.name)

/-- Tells the log how an attempt ended, if it did. -/
def close (log : EventLog σ) (b : Blob) (p : Params) (name : String) :
    Outcome Value → Action (σ × Outside) Unit
  | .success _ => record log (ran b p name .success [])
  | .interrupted _ => pure ()
  | .failed f => record log (ran b p name .failure [errorOf f])

def runAll (log : EventLog σ) (b : Blob) (path : FilePath) (p : Params) :
    List Extractor → Report → Action (σ × Outside) Report
  | [], r => pure r
  | x :: rest, r => do
    let o ← attempt log x b path p
    close log b p x.name o
    runAll log b path p rest (r.add x.name o)

end Dispatch

/-- Runs on a blob every extractor that can process it. -/
def dispatch {σ : Type} (log : EventLog σ) (registry : Registry) (b : Blob) (path : FilePath)
    (p : Params) : Action (σ × Outside) Report := do
  let candidates := registry.candidates b.mimeType b.size
  let names := candidates.map Extractor.name
  Dispatch.record log (Dispatch.detected b p names)
  Dispatch.runAll log b path p candidates (.start b.id names)

/-- A blob to be processed, where its bytes are, and the path it was uploaded under. -/
structure Task where
  blob : Blob
  file : FilePath
  uploadPath : String
  params : Params
  deriving DecidableEq

/-- The task for a file, which has to exist. -/
def Task.make (b : Blob) (file : FilePath) (uploadPath : String) (p : Params) (w : Outside) :
    Except Fault Task :=
  if w.filesExist then .ok ⟨b, file, uploadPath, p⟩ else .error (.blobFileMissing file.text)

def Task.sighting (t : Task) : Sighting :=
  ⟨some t.params.ingestId, some t.blob.id, some t.blob.size, some t.uploadPath, none⟩

/-- Tells the log where the blob of a task was seen, and dispatches it. -/
def handle {σ : Type} (log : EventLog σ) (registry : Registry) (t : Task) :
    Action (σ × Outside) Report := do
  .first (log.insertSighting t.sighting)
  dispatch log registry t.blob t.file t.params

end Intake
