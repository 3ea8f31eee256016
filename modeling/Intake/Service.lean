import Intake.Dispatch
import Intake.EventLog.Store
import Intake.Extractor.Image
import Intake.Extractor.Pdf
import Intake.Settings
import Intake.Status.Query

/-!
# A worker's service

The state of one worker: the store, the outside, the registry, and which log is used for what. Public
questions and a default recorder go by the switch for observability, a variable of the environment that
the tools inherit; when it is off they use the log that keeps nothing.
-/
namespace Intake

/-- Which log is used. -/
inductive Recording where
  | kept
  | dropped
  deriving DecidableEq, Repr, Inhabited

def Recording.log : Recording → EventLog Store
  | kept => Store.log
  | dropped => .nothing Store

def Recording.ofSwitch (on : Bool) : Recording := if on then kept else dropped

/-- The state of a worker. -/
structure Service where
  store : Store
  outside : Outside
  registry : Registry
  /-- The log that reads and writes without a dispatcher use. -/
  direct : Recording
  /-- The log of the dispatcher. -/
  recorder : Recording

namespace Service

def start (now : WallTime) (environment : List (String × String)) (direct : Recording) : Service :=
  ⟨.empty (.still now), { Outside.calm with environment }, .empty, direct, direct⟩

/-- The log that the switch for observability chooses. -/
def chosen (s : Service) : Recording := .ofSwitch (Settings.observes s.outside.environment)

def onStore {α : Type} (m : Action Store α) : Action Service α := fun s =>
  ((m.run s.store).1, { s with store := (m.run s.store).2 })

def onBoth {α : Type} (m : Action (Store × Outside) α) : Action Service α := fun s =>
  let r := m.run (s.store, s.outside)
  (r.1, { s with store := r.2.1, outside := r.2.2 })

def setClock (now : WallTime) : Action Service Unit :=
  .modify fun s => { s with store := { s.store with clock := .still now } }

def disturb (d : Disturbances) : Action Service Unit :=
  .modify fun s => { s with store := { s.store with disturbances := d } }

/-- Sets the switch for observability, or takes its variable away. -/
def switch (value : Option String) : Action Service Unit :=
  .modify fun s =>
    let others := s.outside.environment.filter fun v => v.1 != Settings.observabilityVariable
    let set := value.toList.map fun v => (Settings.observabilityVariable, v)
    { s with outside := { s.outside with environment := others ++ set } }

/-- Meets a new outside in the same environment. Extractors that work elsewhere go on with the answers
they have left. -/
def meet (w : Outside) : Action Service Unit :=
  .modify fun s => { s with outside :=
    { w with environment := s.outside.environment, results := s.outside.results } }

def register (e : Extractor) : Action Service String := do
  let s ← .get
  let registry ← .ofExcept (s.registry.register e)
  .set { s with registry }
  return e.name

/-- Registers an extractor that works elsewhere and will give some answers. -/
def registerElsewhere (name : String) (mimeTypes : List String) (cost perByte priority : Int)
    (answers : List (Except Fault (Outcome Value))) : Action Service String := do
  let name ← register (.elsewhere name mimeTypes cost perByte priority)
  .modify fun s =>
    let others := s.outside.results.filter fun r => r.1 != name
    { s with outside := { s.outside with results := (name, answers) :: others } }
  return name

/-- Replaces the dispatcher by one for images and documents. Without a recorder of its own it goes by the
switch as it is now. -/
def build (notifies ownRecorder : Bool) : Action Service Unit := do
  let s ← .get
  let images ← .ofExcept (Registry.empty.register (Extractor.Image.Setup.standard notifies).extractor)
  let registry ← .ofExcept (images.register (Extractor.Pdf.Setup.standard notifies).extractor)
  .set { s with registry, recorder := if ownRecorder then s.direct else s.chosen }

/-- The names of the candidates for a media type and a size, in order. -/
def candidates (mimeType : String) (size : Int) : Action Service (List String) := do
  return ((← .get).registry.candidates mimeType size).map Extractor.name

def dispatch (id mimeType : String) (size : Int) (file : FilePath) (p : Params) : Action Service Report := do
  let b ← .ofExcept (Blob.make id mimeType size)
  let s ← .get
  onBoth (Intake.dispatch s.recorder.log s.registry b file p)

def handle (id mimeType : String) (size : Int) (file : FilePath) (uploadPath : String) (p : Params) :
    Action Service Report := do
  let b ← .ofExcept (Blob.make id mimeType size)
  let s ← .get
  let t ← .ofExcept (Task.make b file uploadPath p s.outside)
  onBoth (Intake.handle s.recorder.log s.registry t)

/-- Writes an event, so many times. -/
def recordEvent (e : Event) : (times : Nat) → Action Service Unit
  | 0 => pure ()
  | times + 1 => do
    onStore ((← .get).direct.log.insertEvent e)
    recordEvent e times

def recordSighting (r : Sighting) : Action Service Unit := do
  onStore ((← .get).direct.log.insertSighting r)

def events (scope : Scope) : Action Service (List Event) := do
  onStore ((← .get).direct.log.events scope)

def sightings (scope : Scope) : Action Service (List Sighting) := do
  onStore ((← .get).direct.log.sightings scope)

def purge (blobId : String) : Action Service Nat := do
  onStore ((← .get).direct.log.purge blobId)

def statuses (scope : Scope) (threshold : Int) : Action Service (List BlobStatus) := do
  onStore ((← .get).direct.log.statuses scope threshold)

def publicStatuses (scope : Scope) : Action Service (List BlobStatus) := do
  onStore ((← .get).chosen.log.statuses scope Status.defaultThreshold)

def publicPurge (blobId : String) : Action Service Nat := do
  onStore ((← .get).chosen.log.purge blobId)

end Service

end Intake
