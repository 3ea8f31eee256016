import Intake.Extractor.Basic
import Intake.Overlay.Run
import Intake.Transcript

/-!
# Documents with a text layer into the object storage

For each language that is asked for, a copy of the document with a text layer is made in a temporary
directory and put into the object storage while that directory is there.
-/
namespace Intake.Extractor.Pdf

def name : String := "OcrMyPdfExtractor"

/-- How the extractor works. -/
structure Setup where
  tools : Overlay.Tools
  throttle : Float
  /-- Whether signs of life are passed on. -/
  notifies : Bool
  /-- Where the temporary directories go. -/
  scratchRoot : FilePath
  deriving DecidableEq

/-- Where temporary directories go unless something else is asked for. -/
def defaultScratchRoot : FilePath := .ofString "/scratch"

def Setup.standard (notifies : Bool) : Setup :=
  ⟨.standard, Transcript.defaultThrottle, notifies, defaultScratchRoot⟩

/-- The key under which the copy of a blob in a language is stored. -/
def objectKey (blob language : String) : String := "ocr." ++ language ++ "/" ++ blob ++ ".pdf"

def Setup.sink (s : Setup) (b : Blob) : String → Action (Outside × Transcript) Unit :=
  Transcript.append s.throttle (if s.notifies then some (noteSender name b) else none)

/-- The work for one language in a directory of its own. -/
def Setup.job (s : Setup) (document : FilePath) (p : Params) (language : String) (scratch : FilePath) :
    Overlay.Job :=
  ⟨s.tools, language, document, scratch, p.dpi⟩

/-- Makes and stores the copy for one language. -/
def Setup.language (s : Setup) (b : Blob) (document : FilePath) (p : Params) (language : String) :
    Action (Outside × Transcript) (Outcome Unit) :=
  Outside.withScratch s.scratchRoot fun scratch => do
    match ← (s.job document p language scratch).run (s.sink b) with
    | .success output =>
      .first (Outside.putObject (objectKey b.id language) output)
      return .success ()
    | .interrupted reason => return .interrupted reason
    | .failed failure => return .failed failure

/-- Makes and stores one copy after another, up to the first that does not succeed. -/
def Setup.languages (s : Setup) (b : Blob) (document : FilePath) (p : Params) :
    List String → Action (Outside × Transcript) (Outcome Value)
  | [] => pure (.success .null)
  | language :: rest => do
    match ← s.language b document p language with
    | .success _ => languages s b document p rest
    | .interrupted reason => return .interrupted reason
    | .failed failure => return .failed failure

/-- Makes and stores a copy for every language asked for. -/
def Setup.extract (s : Setup) (b : Blob) (document : FilePath) (p : Params) :
    Action Outside (Outcome Value) :=
  if p.languages.isEmpty then .fail (.languageMissing "OcrMyPdf Extractor")
  else do
    Outside.makeDirectory s.scratchRoot
    .lend Transcript.empty (s.languages b document p p.languages)

def Setup.extractor (s : Setup) : Extractor where
  name := name
  priority := 5
  indexing := false
  mimeTypes := ["application/pdf"]
  cost := fun _ size => 100 * size
  extract := s.extract

end Intake.Extractor.Pdf
