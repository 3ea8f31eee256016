import Intake.Status.Order

/-!
# What became of the extractors of a blob

The extractors are the ones that the events about media types name, each once. The history of one is made
of the events about runs that name it, in order; one that no such event names is expected to run, and its
state is unknown.
-/
namespace Intake

/-- The state of an extractor on a blob. -/
inductive ExtractorState where
  | unknown | started | success | failure
  deriving DecidableEq, Repr, Inhabited

namespace ExtractorState

def name : ExtractorState → String
  | unknown => "Unknown"
  | started => "Started"
  | success => "Success"
  | failure => "Failure"

def all : List ExtractorState := [unknown, started, success, failure]

/-- The state of a name; an unknown name is that of an unknown state. -/
def ofName (s : String) : ExtractorState := (all.find? fun k => k.name == s).getD unknown

def ofValue (v : Value) : Except Fault ExtractorState :=
  match all.find? fun s => v = .text s.name with
  | some s => .ok s
  | none => .error (.unknownName v.literal "ExtractorStatusKind")

theorem ofName_name (s : ExtractorState) : ofName s.name = s := by cases s <;> decide

end ExtractorState

/-- A state, and when it was reached if it was. -/
structure StatusUpdate where
  time : Option Timestamp
  state : ExtractorState
  deriving DecidableEq, Repr, Inhabited

/-- The states of one extractor on one blob, in order. -/
structure ExtractorHistory where
  extractor : Value
  updates : List StatusUpdate
  deriving DecidableEq, Inhabited

def ExtractorHistory.current (h : ExtractorHistory) : ExtractorState :=
  match h.updates.getLast? with
  | none => .unknown
  | some u => u.state

namespace Status

def isOfType (t : EventType) (e : Event) : Bool := e.type == t.name

/-- The extractors that events about media types name, each once, in the order of their first naming. -/
def namedExtractors (es : List Event) : Except Fault (List Value) := do
  let named ← (es.filter (isOfType .mimeTypeDetected)).mapM fun e => do
    (← e.detail "extractors").itemsIfGiven
  return Value.distinct named.flatten

/-- The update that an event is for an extractor, if it is a run of that extractor. -/
def updateFor (extractor : Value) (e : Event) : Except Fault (Option StatusUpdate) :=
  if isOfType .runExtractor e then do
    let named ← e.extractorName
    return if named.same extractor then some ⟨some e.moment, .ofName e.status⟩ else none
  else .ok none

/-- The history of an extractor in events that are in order. -/
def historyOf (es : List Event) (extractor : Value) : Except Fault ExtractorHistory := do
  let updates := (← es.mapM (updateFor extractor)).filterMap fun u => u
  return ⟨extractor, if updates.isEmpty then [⟨none, .unknown⟩] else updates⟩

/-- The histories of the extractors of one blob in one ingestion. -/
def extractorHistories (es : List Event) : Except Fault (List ExtractorHistory) := do
  requireMoments es
  let es ← orderEvents es
  (← namedExtractors es).mapM (historyOf es)

end Status

end Intake
