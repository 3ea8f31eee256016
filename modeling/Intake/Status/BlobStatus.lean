import Intake.Status.ExtractorHistory

/-!
# The status of a blob

All that the events and sightings of one blob in one ingestion say, in one place. Of a blob that is
stuck only the moments and the places are told.
-/
namespace Intake

/-- An event in short. -/
structure HistoryItem where
  time : Timestamp
  type : String
  status : String
  deriving DecidableEq, Repr, Inhabited

/-- How a blob fared in an ingestion. -/
structure BlobStatus where
  blobId : Option String
  ingestId : Option String
  start : Timestamp
  latest : Timestamp
  paths : List (Option String)
  size : Option Int
  /-- The last size seen under each path. -/
  sizes : List (Option String × Option Int)
  workspace : Option String
  mimeTypes : Option String
  history : List HistoryItem
  extractors : List ExtractorHistory
  errors : List EventError
  stuck : Bool
  deriving DecidableEq, Inhabited

namespace Status

def putSize (path : Option String) (size : Option Int) :
    List (Option String × Option Int) → List (Option String × Option Int)
  | [] => [(path, size)]
  | (p, s) :: rest => if p = path then (p, size) :: rest else (p, s) :: putSize path size rest

/-- The last size seen under each path, paths in the order in which they were first seen. -/
def sizesOf (rs : List Sighting) : List (Option String × Option Int) :=
  rs.foldl (fun sizes r => putSize r.path r.size sizes) []

/-- The first of the earliest moments. -/
def earliest (t : Timestamp) (es : List Event) : Timestamp :=
  es.foldl (fun t e => if e.moment.instant < t.instant then e.moment else t) t

/-- The first of the latest moments. -/
def latest (t : Timestamp) (es : List Event) : Timestamp :=
  es.foldl (fun t e => if t.instant < e.moment.instant then e.moment else t) t

/-- A given value as a text; what is no text is a collection of texts, and they are joined by commas. -/
def detailText (v : Value) : Except Fault String :=
  match v with
  | .text s => .ok s
  | _ => do
    let pieces ← (← v.items).mapM Value.asText
    return ",".intercalate pieces

/-- The first given value of a member among the details of events. -/
def firstDetail (name : String) : List Event → Except Fault (Option String)
  | [] => .ok none
  | e :: rest => do
    let v ← e.detail name
    if v.truthy then
      let s ← detailText v
      return some s
    else firstDetail name rest

/-- The last given value of a member among the details of events. -/
def latestDetail (name : String) (es : List Event) : Except Fault (Option String) :=
  firstDetail name es.reverse

/-- The errors that an event reports, all of which can be told apart. -/
def distinguishableErrors (e : Event) : Except Fault (List EventError) := do
  let errors ← e.errors
  if errors.all fun d => d.stackTrace.isKey then return errors else .error .noKey

/-- The errors of a list, each once, where it stands first. -/
def distinctErrors (errors : List EventError) : List EventError :=
  errors.foldl (fun seen e => if seen.any e.same then seen else seen ++ [e]) []

/-- The errors that events report, each once. -/
def errorsOf (es : List Event) : Except Fault (List EventError) := do
  return distinctErrors (← es.mapM distinguishableErrors).flatten

def historyItem (e : Event) : HistoryItem := ⟨e.moment, e.type, e.status⟩

/-- What is told of every blob, from its first event, all its events and its sightings in order. -/
def outline (blobId ingestId : Option String) (e : Event) (es : List Event) (rs : List Sighting)
    (stuck : Bool) : BlobStatus where
  blobId := blobId
  ingestId := ingestId
  start := earliest e.moment es
  latest := latest e.moment es
  paths := (sizesOf rs).map Prod.fst
  size := rs.getLast?.bind Sighting.size
  sizes := sizesOf rs
  workspace := none
  mimeTypes := none
  history := []
  extractors := []
  errors := []
  stuck := stuck

/-- The status of a blob in an ingestion. -/
def blobStatus (blobId ingestId : Option String) (es : List Event) (rs : List Sighting) (stuck : Bool) :
    Except Fault BlobStatus := do
  if es.isEmpty then .error (.noEvents (Value.textOrNone blobId))
  requireMoments es
  let es ← orderEvents es
  let rs ← orderSightings rs
  match es with
  | [] => .error (.noEvents (Value.textOrNone blobId))
  | e :: _ =>
    let base := outline blobId ingestId e es rs stuck
    if stuck then return base
    else
      let workspace ← latestDetail "workspaceName" es
      let mimeTypes ← latestDetail "mimeTypes" es
      let extractors ← extractorHistories es
      let errors ← errorsOf es
      return { base with workspace, mimeTypes, history := es.map historyItem, extractors, errors }

end Status

end Intake
