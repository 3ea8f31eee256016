import Intake.Decimal.Layout
import Intake.Extractor.Basic
import Intake.ImageText

/-!
# Images into the search index

The text of an image is read once for each language that is asked for, and each reading goes to the
search index before the next one begins.
-/
namespace Intake.Extractor.Image

def name : String := "ImageOcrExtractor"

/-- How the extractor works. -/
structure Setup where
  tool : ImageText.Tool
  throttle : Float
  /-- Whether signs of life are passed on. -/
  notifies : Bool
  /-- The seconds that the search index has to take a document. -/
  indexTimeout : Float
  deriving DecidableEq, Repr

/-- The seconds that the search index has unless something else is asked for. -/
def defaultIndexTimeout : Float := 10.0

def Setup.standard (notifies : Bool) : Setup :=
  ⟨.standard, Transcript.defaultThrottle, notifies, defaultIndexTimeout⟩

/-- The failure of a search index that does not come back. -/
def Setup.indexTimeoutFailure (s : Setup) (b : Blob) (language : String) : Failure where
  kind := .indexTimeout
  detail := "Indexing OCR text (" ++ language ++ ") for blob " ++ b.id ++ " took longer than " ++
    Decimal.textOf s.indexTimeout ++ "s"
  stackTrace := none

/-- Gives a document to the search index, and says whether it was taken in time. A fault that itself
says that time ran out cannot be told from the timeout. -/
def index (d : Document) : Action Outside Bool :=
  (Outside.addDocument d).onFault fun e => if e.kind = .timeout then pure false else .fail e

def Setup.sink (s : Setup) (b : Blob) : String → Action (Outside × Transcript) Unit :=
  Transcript.append s.throttle (if s.notifies then some (noteSender name b) else none)

/-- Reads and indexes the image in one language after another, up to the first that does not succeed. -/
def Setup.languages (s : Setup) (b : Blob) (image : FilePath) :
    List String → Action (Outside × Transcript) (Outcome Value)
  | [] => pure (.success .null)
  | language :: rest => do
    match ← ImageText.recognise s.tool language image (s.sink b) with
    | .success text =>
      if ← .first (index ⟨b.id, text, language⟩) then languages s b image rest
      else return .failed (s.indexTimeoutFailure b language)
    | .interrupted reason => return .interrupted reason
    | .failed failure => return .failed failure

/-- Reads and indexes the image in every language asked for. -/
def Setup.extract (s : Setup) (b : Blob) (image : FilePath) (p : Params) : Action Outside (Outcome Value) :=
  if p.languages.isEmpty then .fail (.languageMissing "Image OCR Extractor")
  else .lend Transcript.empty (s.languages b image p.languages)

def Setup.extractor (s : Setup) : Extractor where
  name := name
  priority := 1
  indexing := true
  mimeTypes := ["image/jpeg", "image/png", "image/tiff"]
  cost := fun _ size => 100 * size
  extract := s.extract

end Intake.Extractor.Image
