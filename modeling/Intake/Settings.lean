import Intake.Decimal.Numeral
import Intake.Event
import Intake.Extractor.Image
import Intake.Extractor.Pdf
import Intake.Status.Reconstruct

/-!
# Settings

What the environment says about where things are and how they work. A variable that is set to nothing
counts as set.
-/
namespace Intake

/-- The settings of a deployment. -/
structure Settings where
  scratchDirectory : FilePath
  postgresUser : String
  postgresPassword : String
  postgresServer : String
  postgresPort : String
  postgresDatabase : String
  useSqlite : Bool
  observing : Bool
  tesseract : String
  ocrmypdf : String
  qpdf : String
  engineMode : Int
  segmentationMode : Int
  noteThrottle : Float
  stuckThreshold : Int
  indexTimeout : Float
  deriving DecidableEq

namespace Settings

/-- Whether a switch is on: its text is `true`, in any case. -/
def isOn (s : String) : Bool := s.toList.map Char.toLower == "true".toList

/-- The variable that is the switch for observability. -/
def observabilityVariable : String := "OBSERVABILITY_ENABLED"

/-- Whether an environment has the event log kept, which it has unless it says something else. -/
def observes (environment : List (String × String)) : Bool :=
  (environment.lookup observabilityVariable).all isOn

def wholeNumber (s : String) : Except Fault Int :=
  match Decimal.integer s with
  | .ok n => .ok n
  | .error .malformed => .error (.badInteger (String.ofList ((Text.quoted s).toList.take 200)))
  | .error (.tooLong n) => .error (.tooManyDigits n Decimal.maxDigits)

def realNumber (s : String) : Except Fault Float :=
  match Decimal.float? s with
  | some x => .ok x
  | none => .error (.badFloat (Text.quoted s))

/-- The program that a tool is run by: the one that is set, else the one on the search path, else the one
of the tool's name. -/
def program (found : List (String × String)) (set : Option String) (tool : String) : String :=
  set.getD (match found.lookup tool with
    | some path => if path = "" then tool else path
    | none => tool)

/-- Reads the settings of a deployment below a directory, where looking up tools on the search path finds
what it finds. -/
def read (base : FilePath) (environment found : List (String × String)) : Except Fault Settings := do
  let get (name : String) := environment.lookup name
  let engineMode ← wholeNumber ((get "TESSERACT_OEM").getD "1")
  let segmentationMode ← wholeNumber ((get "TESSERACT_PSM").getD "3")
  let noteThrottle ← realNumber ((get "PROGRESS_NOTE_THROTTLE_SECONDS").getD "5")
  let stuckThreshold ← wholeNumber ((get "INFINITE_LOOP_EVENT_THRESHOLD").getD "100")
  let indexTimeout ← realNumber ((get "INDEX_TIMEOUT_SECONDS").getD "10")
  return {
    scratchDirectory := match get "SCRATCH_DIR" with
      | some s => .ofString s
      | none => (base.child "data").child "scratch"
    postgresUser := (get "POSTGRES_USER").getD "postgres"
    postgresPassword := (get "POSTGRES_PASSWORD").getD "password"
    postgresServer := (get "POSTGRES_SERVER").getD "localhost"
    postgresPort := (get "POSTGRES_PORT").getD "5432"
    postgresDatabase := (get "POSTGRES_DB").getD "ingest_events"
    useSqlite := (get "USE_SQLITE").any isOn
    observing := observes environment
    tesseract := program found (get "TESSERACT_BINARY_PATH") "tesseract"
    ocrmypdf := program found (get "OCRMYPDF_BINARY_PATH") "ocrmypdf"
    qpdf := program found (get "QPDF_BINARY_PATH") "qpdf"
    engineMode, segmentationMode, noteThrottle, stuckThreshold, indexTimeout }

def databaseUrl (s : Settings) : String :=
  if s.useSqlite then "sqlite:///./test_ingest_engine.db"
  else "postgresql://" ++ s.postgresUser ++ ":" ++ s.postgresPassword ++ "@" ++ s.postgresServer ++ ":" ++
    s.postgresPort ++ "/" ++ s.postgresDatabase

def occursIn (part : List Char) : List Char → Bool
  | [] => part.isEmpty
  | c :: rest => part.isPrefixOf (c :: rest) || occursIn part rest

/-- Whether connections may be used by threads that did not open them, for which a database in a file has
to be told so. -/
def sharesConnections (s : Settings) : Bool := occursIn "sqlite".toList s.databaseUrl.toList

end Settings

end Intake
