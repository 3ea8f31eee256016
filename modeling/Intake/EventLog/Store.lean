import Intake.EventLog.Basic
import Intake.EventLog.Like
import Intake.Value.Pairs

/-!
# The store

A log of two tables. A write or a purge happens as a whole or not at all; the database may refuse any of
its parts. Moments are stored without their offsets, and a row without a moment gets that of the store's
clock.
-/
namespace Intake

/-- A stored event. -/
structure EventRow where
  id : Nat
  blobId : String
  ingestId : String
  type : String
  status : String
  details : Members
  time : WallTime
  deriving DecidableEq, Inhabited

/-- A stored sighting. -/
structure SightingRow where
  id : Nat
  blobId : String
  ingestId : String
  size : Int
  path : String
  time : WallTime
  deriving DecidableEq, Repr, Inhabited

def EventRow.toEvent (r : EventRow) : Event :=
  ⟨some r.blobId, some r.ingestId, r.type, r.status, .object r.details, some (.withoutOffset r.time),
    some (Int.ofNat r.id)⟩

def SightingRow.toSighting (r : SightingRow) : Sighting :=
  ⟨some r.ingestId, some r.blobId, some r.size, some r.path, some (.withoutOffset r.time)⟩

/-- When the database refuses an action of one sort, and with what words: the actions to come are
counted from zero. -/
def Disturbance : Type := Nat → Option String

namespace Disturbance

def never : Disturbance := fun _ => none

/-- The database refuses everything after `skip` actions. -/
def after (skip : Nat) (words : String) : Disturbance := fun n => if n < skip then none else some words

/-- What remains to come after one action. -/
def rest (d : Disturbance) : Disturbance := fun n => d (n + 1)

end Disturbance

/-- When the database refuses which of its actions. -/
structure Disturbances where
  insert : Disturbance
  delete : Disturbance
  commit : Disturbance
  query : Disturbance

def Disturbances.none : Disturbances := ⟨.never, .never, .never, .never⟩

/-- What the store's clock is going to show: the rows to come are counted from zero. -/
def Clock : Type := Nat → WallTime

namespace Clock

def still (now : WallTime) : Clock := fun _ => now

/-- What remains to be shown after one row. -/
def rest (c : Clock) : Clock := fun n => c (n + 1)

end Clock

/-- The two tables, the clock, and what the database is going to refuse. -/
structure Store where
  events : List EventRow
  sightings : List SightingRow
  clock : Clock
  disturbances : Disturbances

namespace Store

def empty (clock : Clock) : Store := ⟨[], [], clock, .none⟩

/-- The number of a new row: one more than the largest there is. -/
def nextId (ids : List Nat) : Nat := ids.foldl max 0 + 1

/-- Has the database carry out an action, unless it refuses. -/
def actOn (get : Disturbances → Disturbance) (put : Disturbances → Disturbance → Disturbances)
    (refuse : String → Fault) : Action Store Unit := do
  let s ← .get
  .set { s with disturbances := put s.disturbances (get s.disturbances).rest }
  match get s.disturbances 0 with
  | none => return ()
  | some words => .fail (refuse words)

def insertion (refuse : String → Fault) : Action Store Unit :=
  actOn (·.insert) (fun d x => { d with insert := x }) refuse

def deletion (refuse : String → Fault) : Action Store Unit :=
  actOn (·.delete) (fun d x => { d with delete := x }) refuse

/-- A commit, which may be refused before anything is carried out. -/
def commit (refuse : String → Fault) : Action Store Unit :=
  actOn (·.commit) (fun d x => { d with commit := x }) refuse

def query (refuse : String → Fault) : Action Store Unit :=
  actOn (·.query) (fun d x => { d with query := x }) refuse

def required {α : Type} (missing : Fault) : Option α → Except Fault α
  | none => .error missing
  | some a => .ok a

def rowOf (id : Nat) (now : WallTime) (e : Event) (details : Members) : Except Fault EventRow := do
  let missing := Fault.eventNotWritten (Value.textOrNone e.blobId) .missingField
  let blobId ← required missing e.blobId
  let ingestId ← required missing e.ingestId
  return ⟨id, blobId, ingestId, e.type, e.status, details, (e.time.map Timestamp.wall).getD now⟩

/-- The sizes that can be stored: those of 64 bits with a sign. -/
def sizeInRange (size : Int) : Bool := decide (-0x8000000000000000 ≤ size ∧ size < 0x8000000000000000)

def sightingRowOf (id : Nat) (now : WallTime) (r : Sighting) : Except Fault SightingRow := do
  if r.size.any fun n => !sizeInRange n then .error .sizeOutOfRange
  let missing := Fault.sightingNotWritten (Value.textOrNone r.blobId) .missingField
  let ingestId ← required missing r.ingestId
  let blobId ← required missing r.blobId
  let size ← required missing r.size
  let path ← required missing r.path
  return ⟨id, blobId, ingestId, size, path, (r.time.map Timestamp.wall).getD now⟩

/-- Stores an event. Its details are made an object first. Nothing of it reaches the database before the
commit, so that a refusal of the commit comes before any fault of the row. -/
def insertEvent (e : Event) : Action Store Unit := do
  let details ← .ofExcept e.details.toMembers
  let refuse words := Fault.eventNotWritten (Value.textOrNone e.blobId) (.database words)
  commit refuse
  let s ← .get
  let row ← .ofExcept (rowOf (nextId (s.events.map EventRow.id)) (s.clock 0) e details)
  insertion refuse
  .modify fun s => { s with events := s.events ++ [row], clock := s.clock.rest }

/-- Stores a sighting. A refusal of the commit comes before any fault of the row. -/
def insertSighting (r : Sighting) : Action Store Unit := do
  let refuse words := Fault.sightingNotWritten (Value.textOrNone r.blobId) (.database words)
  commit refuse
  let s ← .get
  let row ← .ofExcept (sightingRowOf (nextId (s.sightings.map SightingRow.id)) (s.clock 0) r)
  insertion refuse
  .modify fun s => { s with sightings := s.sightings ++ [row], clock := s.clock.rest }

def inScope : Scope → String → Bool
  | .exactly id, other => id == other
  | .startingWith text, other => Like.isLike other.toList (Like.patternOf text.toList)

/-- Whether a row with one moment and number may stand before a row with another: by moment, then by
number. -/
def placedBefore (a b : Nat × Nat) : Bool := decide (a.1 < b.1 ∨ (a.1 = b.1 ∧ a.2 ≤ b.2))

/-- The stored events in a scope, by moment and number. -/
def eventsIn (s : Store) (scope : Scope) : List Event :=
  ((s.events.filter fun r => inScope scope r.ingestId).mergeSort fun r t =>
    placedBefore (r.time, r.id) (t.time, t.id)).map EventRow.toEvent

/-- The stored sightings in a scope, by moment and number. -/
def sightingsIn (s : Store) (scope : Scope) : List Sighting :=
  ((s.sightings.filter fun r => inScope scope r.ingestId).mergeSort fun r t =>
    placedBefore (r.time, r.id) (t.time, t.id)).map SightingRow.toSighting

def readEvents (scope : Scope) : Action Store (List Event) := do
  query fun words => .eventsNotRead scope.text words
  return (← .get).eventsIn scope

def readSightings (scope : Scope) : Action Store (List Sighting) := do
  query fun words => .sightingsNotRead scope.text words
  return (← .get).sightingsIn scope

/-- Has statements carried out on the tables. If one of them fails, the tables are as they were before. -/
def transaction {α : Type} (statements : Action Store α) : Action Store α := fun s =>
  match statements s with
  | (.ok a, t) => (.ok a, t)
  | (.error f, t) => (.error f, { t with events := s.events, sightings := s.sightings })

/-- Removes the rows of a blob from one of the tables, and gives their number. -/
def deleteFrom {ρ : Type} (table : Store → List ρ) (put : Store → List ρ → Store) (blobOf : ρ → String)
    (refuse : String → Fault) (blobId : String) : Action Store Nat := do
  deletion refuse
  let s ← .get
  .set (put s ((table s).filter fun r => blobOf r != blobId))
  return (table s).countP fun r => blobOf r == blobId

/-- Removes the rows of a blob from both tables, and gives their number. -/
def purge (blobId : String) : Action Store Nat :=
  let refuse words := Fault.blobNotPurged blobId (.database words)
  transaction do
    let events ← deleteFrom Store.events (fun s rows => { s with events := rows }) EventRow.blobId
      refuse blobId
    let sightings ← deleteFrom Store.sightings (fun s rows => { s with sightings := rows })
      SightingRow.blobId refuse blobId
    commit refuse
    return events + sightings

def log : EventLog Store where
  insertEvent := insertEvent
  insertSighting := insertSighting
  events := readEvents
  sightings := readSightings
  purge := purge

theorem lt_nextId {ids : List Nat} {i : Nat} (h : i ∈ ids) : i < nextId ids := by
  suffices ∀ (ids : List Nat) (m : Nat), m ≤ ids.foldl max m ∧ ∀ i ∈ ids, i ≤ ids.foldl max m from
    Nat.lt_succ_of_le ((this ids 0).2 i h)
  intro ids
  induction ids with
  | nil => simp
  | cons a ids ih =>
    intro m
    obtain ⟨h₁, h₂⟩ := ih (max m a)
    simp only [List.foldl_cons, List.mem_cons, forall_eq_or_imp]
    exact ⟨by omega, by omega, h₂⟩

end Store

end Intake
