import Intake.Text.Quoted

/-!
# Faults

Everything that can cut a piece of work short, told apart by its cause. A fault belongs to a kind; the
kinds decide who may swallow it.
-/
namespace Intake

/-- The kinds of faults. -/
inductive Fault.Kind where
  | runtime | value | key | os | timeout | fileNotFound | permission | assertion | notImplemented
  | interrupt | engine | missingParameter | storage | storageRead | storageWrite
  | badType | badMember | outOfRange | badIndex
  deriving DecidableEq, Repr, Inhabited

namespace Fault.Kind

def name : Kind → String
  | runtime => "RuntimeError"
  | value => "ValueError"
  | key => "KeyError"
  | os => "OSError"
  | timeout => "TimeoutError"
  | fileNotFound => "FileNotFoundError"
  | permission => "PermissionError"
  | assertion => "AssertionError"
  | notImplemented => "NotImplementedError"
  | interrupt => "KeyboardInterrupt"
  | engine => "IngestEngineError"
  | missingParameter => "MissingRequiredParameterError"
  | storage => "StorageError"
  | storageRead => "StorageReadError"
  | storageWrite => "StorageWriteError"
  | badType => "TypeError"
  | badMember => "AttributeError"
  | outOfRange => "OverflowError"
  | badIndex => "IndexError"

def all : List Kind :=
  [runtime, value, key, os, timeout, fileNotFound, permission, assertion, notImplemented, interrupt,
    engine, missingParameter, storage, storageRead, storageWrite, badType, badMember,
    outOfRange, badIndex]

def ofName? (s : String) : Option Kind := all.find? fun k => k.name == s

/-- Faults of the event log. -/
def isStorage : Kind → Bool
  | storage | storageRead | storageWrite => true
  | _ => false

/-- Faults this library defines itself. -/
def isOwn : Kind → Bool
  | engine | missingParameter => true
  | k => k.isStorage

/-- All but the demand to stop at once. -/
def isOrdinary : Kind → Bool
  | interrupt => false
  | _ => true

def tracedName (k : Kind) : String :=
  if k.isOwn then "ingest_engine.core.common.errors." ++ k.name else k.name

theorem mem_all (k : Kind) : k ∈ all := by cases k <;> simp [all]

theorem ofName?_name (k : Kind) : ofName? k.name = some k := by cases k <;> decide

end Fault.Kind

/-- Why the event log refused a change. -/
inductive Refusal where
  | missingField
  | database (text : String)
  deriving DecidableEq, Repr, Inhabited

/-- What cut a piece of work short. -/
inductive Fault where
  /-- A fault from outside, with its text. -/
  | raised (kind : Fault.Kind) (text : String)
  /-- A member of what is no object. -/
  | noObject
  /-- The items of what has none. -/
  | noItems
  /-- A text was needed. -/
  | noText
  /-- A list or an object cannot be told apart from others. -/
  | noKey
  /-- A moment with an offset and one without have no order. -/
  | noOrder
  /-- An object was to be made of pairs, and an item is no pair. -/
  | noPair (position length : Nat)
  | emptyBlobId
  | negativeSize (size : Int)
  /-- A whole number too large for the event log. -/
  | sizeOutOfRange
  /-- A command without a first word. -/
  | emptyCommand
  | languageMissing (extractor : String)
  | blobFileMissing (path : String)
  | duplicateExtractor (name : String)
  | noEvents (blob : String)
  | unstoredEvents (count : Nat) (blob : String)
  /-- A name, in quotes, that a closed family of names does not have. -/
  | unknownName (shown family : String)
  | badInteger (shown : String)
  | tooManyDigits (count limit : Nat)
  | badFloat (shown : String)
  | eventNotWritten (blob : String) (why : Refusal)
  | sightingNotWritten (blob : String) (why : Refusal)
  | blobNotPurged (blob : String) (why : Refusal)
  | eventsNotRead (ingest why : String)
  | sightingsNotRead (ingest why : String)
  deriving DecidableEq, Repr, Inhabited

namespace Fault

def kind : Fault → Kind
  | raised k _ => k
  | noObject => .badMember
  | noItems | noText | noKey | noOrder => .badType
  | sizeOutOfRange => .outOfRange
  | emptyCommand => .badIndex
  | languageMissing _ => .missingParameter
  | blobFileMissing _ => .fileNotFound
  | eventNotWritten .. | sightingNotWritten .. | blobNotPurged .. => .storageWrite
  | eventsNotRead .. | sightingsNotRead .. => .storageRead
  | noPair .. | emptyBlobId | negativeSize _ | duplicateExtractor _ | noEvents _ | unstoredEvents ..
  | unknownName .. | badInteger _ | tooManyDigits .. | badFloat _ => .value

def message : Fault → String
  | raised _ text => text
  | noObject => "not an object"
  | noItems => "nothing to go through"
  | noText => "not a text"
  | noKey => "not to be told apart"
  | noOrder => "not to be put in order"
  | noPair position length =>
    "dictionary update sequence element #" ++ toString position ++ " has length " ++ toString length ++
      "; 2 is required"
  | emptyBlobId => "Blob id cannot be empty."
  | negativeSize size => "Blob size cannot be negative: " ++ toString size
  | sizeOutOfRange => "number out of range"
  | emptyCommand => "no first word"
  | languageMissing extractor => extractor ++ " requires a language"
  | blobFileMissing path => "Blob file not found: " ++ path
  | duplicateExtractor name => "An extractor named " ++ name ++ " is already registered."
  | noEvents blob => "Cannot build a status for blob " ++ blob ++ " without events."
  | unstoredEvents count blob =>
    toString count ++ " event(s) of blob " ++ blob ++
      " have no event_time; statuses can only be built from stored events."
  | unknownName shown family => shown ++ " is not a valid " ++ family
  | badInteger shown => "invalid literal for int() with base 10: " ++ shown
  | tooManyDigits count limit =>
    "Exceeds the limit (" ++ toString limit ++ " digits) for integer string conversion: value has " ++
      toString count ++ " digits; use sys.set_int_max_str_digits() to increase the limit"
  | badFloat shown => "could not convert string to float: " ++ shown
  | eventNotWritten blob _ => "Failed to insert ingestion event for blob " ++ blob
  | sightingNotWritten blob _ => "Failed to insert metadata for blob " ++ blob
  | blobNotPurged blob _ => "Failed to delete ingestion events for blob " ++ blob
  | eventsNotRead ingest why => "getEvents failed for ingestion " ++ ingest ++ ": " ++ why
  | sightingsNotRead ingest why => "Reading blob metadata failed for ingestion " ++ ingest ++ ": " ++ why

/-- What stands behind a fault of the event log. -/
def cause? : Fault → Option String
  | eventNotWritten _ why | sightingNotWritten _ why | blobNotPurged _ why =>
    match why with
    | .missingField => some "IntegrityError"
    | .database text => some text
  | eventsNotRead _ why | sightingsNotRead _ why => some why
  | _ => none

/-- A fault of a kind reported with a message, or without one. A key is shown in quotes. -/
def report (k : Kind) : Option String → Fault
  | none => raised k ""
  | some m => raised k (if k = .key then Text.quoted m else m)

end Fault

end Intake
