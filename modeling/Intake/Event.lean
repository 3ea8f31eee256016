import Intake.Timestamp
import Intake.Value.Same
import Intake.Value.Text

/-!
# Events and sightings

An event is one change in the state of a blob during an ingestion. A sighting is a place where a blob
was seen. Neither is ever changed once it is written.
-/
namespace Intake

/-- What events this library writes are about. -/
inductive EventType where
  | hashComplete | workspaceUpload | mimeTypeDetected | runExtractor | uploadComplete
  deriving DecidableEq, Repr, Inhabited

def EventType.name : EventType → String
  | hashComplete => "HashComplete"
  | workspaceUpload => "WorkspaceUpload"
  | mimeTypeDetected => "MimeTypeDetected"
  | runExtractor => "RunExtractor"
  | uploadComplete => "UploadComplete"

/-- How what an event is about went. -/
inductive EventStatus where
  | started | success | failure
  deriving DecidableEq, Repr, Inhabited

namespace EventStatus

def name : EventStatus → String
  | started => "Started"
  | success => "Success"
  | failure => "Failure"

def ofValue (v : Value) : Except Fault EventStatus :=
  match [started, success, failure].find? fun s => v = .text s.name with
  | some s => .ok s
  | none => .error (.unknownName v.literal "EventStatus")

end EventStatus

/-- An error that an event reports. -/
structure EventError where
  message : String
  stackTrace : Value
  deriving DecidableEq, Inhabited

namespace EventError

/-- The error that a value describes. Only an object is looked into. -/
def ofValue : Value → EventError
  | .object members =>
    ⟨((members.lookup "message").getD (.text "")).toText, (members.lookup "stackTrace").getD .null⟩
  | v => ⟨v.toText, .null⟩

def toValue (e : EventError) : Value :=
  .object [("message", .text e.message), ("stackTrace", e.stackTrace)]

def same (d e : EventError) : Bool := d.message = e.message && d.stackTrace.same e.stackTrace

theorem ofValue_toValue (e : EventError) : ofValue e.toValue = e := rfl

end EventError

/-- One change in the state of a blob. An event that is not written yet may lack anything. -/
structure Event where
  blobId : Option String
  ingestId : Option String
  type : String
  status : String
  details : Value
  time : Option Timestamp
  id : Option Int
  deriving DecidableEq, Inhabited

namespace Event

def detail (name : String) (e : Event) : Except Fault Value := e.details.member name

def extractorName (e : Event) : Except Fault Value := e.detail "extractorName"

def errors (e : Event) : Except Fault (List EventError) := do
  let items ← (← e.detail "errors").itemsIfGiven
  return items.map EventError.ofValue

/-- A media type was found, and extractors that can process it. -/
def mimeTypeDetected (blobId ingestId : Option String) (mimeType : String) (extractors : List Value)
    (workspace : Option String) : Event where
  blobId := blobId
  ingestId := ingestId
  type := EventType.mimeTypeDetected.name
  status := EventStatus.success.name
  details := .object <| [("extractors", .list extractors), ("mimeTypes", .text mimeType)] ++
    match workspace with
    | none => []
    | some w => if w = "" then [] else [("workspaceName", .text w)]
  time := none
  id := none

/-- An extractor changed its state. -/
def runExtractor (blobId ingestId : Option String) (extractor : String) (status : EventStatus)
    (errors : List EventError) : Event where
  blobId := blobId
  ingestId := ingestId
  type := EventType.runExtractor.name
  status := status.name
  details := .object <| [("extractorName", .text extractor)] ++
    if errors.isEmpty then [] else [("errors", .list (errors.map EventError.toValue))]
  time := none
  id := none

/-- The blob and the ingestion that an event belongs to. -/
def key (e : Event) : Option String × Option String := (e.blobId, e.ingestId)

/-- When an event happened. Statuses are built only from events of which this is known. -/
def moment (e : Event) : Timestamp := e.time.getD (.withoutOffset 0)

theorem extractorName_runExtractor (b i : Option String) (x : String) (s : EventStatus)
    (es : List EventError) : (runExtractor b i x s es).extractorName = .ok (.text x) := rfl

theorem errors_runExtractor (b i : Option String) (x : String) (s : EventStatus) (es : List EventError) :
    (runExtractor b i x s es).errors = .ok es := by
  cases es with
  | nil => rfl
  | cons e es =>
    have h : (e :: es).map (EventError.ofValue ∘ EventError.toValue) = e :: es := by
      rw [show EventError.ofValue ∘ EventError.toValue = fun d => d from funext EventError.ofValue_toValue]
      exact List.map_id' _
    rw [← List.map_map] at h
    exact congrArg Except.ok h

end Event

/-- A place where a blob was seen. -/
structure Sighting where
  ingestId : Option String
  blobId : Option String
  size : Option Int
  path : Option String
  time : Option Timestamp
  deriving DecidableEq, Repr, Inhabited

/-- The blob and the ingestion that a sighting belongs to. -/
def Sighting.key (s : Sighting) : Option String × Option String := (s.blobId, s.ingestId)

end Intake
