import Intake.Status.BlobStatus

/-!
# The statuses of all blobs

Events and sightings are told apart by blob and ingestion, and each blob in each ingestion has its
status built from its own alone. A blob with too many events over all ingestions is stuck in all of them.
-/
namespace Intake.Status

/-- The number of events above which a blob counts as stuck, unless something else is asked for. -/
def defaultThreshold : Int := 100

/-- Whether a blob has more than `threshold` events. -/
def isStuck (es : List Event) (threshold : Int) (blobId : Option String) : Bool :=
  decide (threshold < Int.ofNat (es.countP fun e => e.blobId == blobId))

/-- The blobs of events, in the order of their first event. -/
def blobsOf (es : List Event) : List (Option String) := (es.map Event.blobId).eraseDups

def stuckBlobs (es : List Event) (threshold : Int) : List (Option String) :=
  (blobsOf es).filter (isStuck es threshold)

/-- The pairs of blob and ingestion of events, in the order of their first event. -/
def keysOf (es : List Event) : List (Option String × Option String) := (es.map Event.key).eraseDups

/-- Whether two names, which may be missing, can be put in order. -/
def namesComparable (a b : Option String) : Bool := a.isSome == b.isSome

/-- Whether a name, none counting as the empty one, comes before another. -/
def nameBefore (a b : Option String) : Bool := decide (a.getD "" < b.getD "")

def orderNames (names : List (Option String)) : Except Fault (List (Option String)) :=
  if names.all fun a => names.all (namesComparable a) then
    .ok (names.mergeSort fun a b => !nameBefore b a)
  else .error .noOrder

/-- Whether two statuses can be put in order by blob and then by ingestion. -/
def keysComparable (s t : BlobStatus) : Bool :=
  namesComparable s.blobId t.blobId && (s.blobId != t.blobId || namesComparable s.ingestId t.ingestId)

/-- Whether a status may stand before another: later starts come first, then smaller blobs, then smaller
ingestions. -/
def statusBefore (s t : BlobStatus) : Bool :=
  decide (t.start.instant < s.start.instant) ||
    (s.start.instant == t.start.instant &&
      (nameBefore s.blobId t.blobId ||
        (!nameBefore t.blobId s.blobId && !nameBefore t.ingestId s.ingestId)))

def orderStatuses (ss : List BlobStatus) : Except Fault (List BlobStatus) :=
  if (ss.all fun s => ss.all (keysComparable s)) && allComparable (ss.map BlobStatus.start) then
    .ok (ss.mergeSort statusBefore)
  else .error .noOrder

/-- The status of one blob in one ingestion, from all events and all sightings. -/
def statusOf (es : List Event) (rs : List Sighting) (threshold : Int)
    (key : Option String × Option String) : Except Fault BlobStatus :=
  blobStatus key.1 key.2 (es.filter fun e => e.key == key) (rs.filter fun r => r.key == key)
    (isStuck es threshold key.1)

/-- The statuses of all blobs in all ingestions. -/
def reconstruct (es : List Event) (rs : List Sighting) (threshold : Int) :
    Except Fault (List BlobStatus) := do
  orderStatuses (← (keysOf es).mapM (statusOf es rs threshold))

end Intake.Status
