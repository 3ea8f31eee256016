import Intake.Proofs.EventLog.Reading
import Intake.Proofs.Lists

/-!
# Statuses of stored events

What a store gives out is in order and can be compared, so that nothing is left of the sorting and the
checks when a status is built from it.
-/
namespace Intake

/-- The blob and the ingestion that a status belongs to. -/
def BlobStatus.key (t : BlobStatus) : Option String × Option String := (t.blobId, t.ingestId)

namespace Status

theorem distinct_eq (vs : List Value) : Value.distinct vs = vs.eraseDupsBy Value.same :=
  Lists.foldl_distinct Value.same vs

theorem distinctErrors_eq (errors : List EventError) :
    distinctErrors errors = errors.eraseDupsBy EventError.same :=
  Lists.foldl_distinct EventError.same errors

/-- The histories of the extractors of one blob, from events that are in order. -/
def historiesOf (es : List Event) : Except Fault (List ExtractorHistory) := do
  (← namedExtractors es).mapM (historyOf es)

/-- The status of a blob, from events and sightings that are in order. -/
def summary (blobId ingestId : Option String) (es : List Event) (rs : List Sighting) (stuck : Bool) :
    Except Fault BlobStatus :=
  match es with
  | [] => .error (.noEvents (Value.textOrNone blobId))
  | e :: _ =>
    let base := outline blobId ingestId e es rs stuck
    if stuck then return base
    else do
      let workspace ← latestDetail "workspaceName" es
      let mimeTypes ← latestDetail "mimeTypes" es
      let extractors ← historiesOf es
      let errors ← errorsOf es
      return { base with workspace, mimeTypes, history := es.map historyItem, extractors, errors }

theorem Stored.offset {es : List Event} (h : Stored es) {e : Event} (he : e ∈ es) :
    e.moment.offset = none := by
  obtain ⟨r, rfl⟩ := h.whole e he
  rfl

/-- All moments of events are known, and nothing keeps the events and the sightings from being put in
order. -/
structure Orderable (es : List Event) (rs : List Sighting) : Prop where
  whole : ∀ e ∈ es, e.time.isSome = true
  events : allComparable (es.map Event.moment) = true
  sightings : allComparable (rs.filterMap Sighting.time) = true

theorem allComparable_perm {ts ts' : List Timestamp} (h : ts.Perm ts') :
    allComparable ts = allComparable ts' := by
  rw [allComparable, allComparable, h.all_eq, h.all_eq]

section

variable {blobId ingestId : Option String} {es es' : List Event} {rs rs' : List Sighting} {stuck : Bool}

theorem Orderable.perm (h : Orderable es rs) (he : es.Perm es') (hr : rs.Perm rs') :
    Orderable es' rs' where
  whole e hm := h.whole e (he.mem_iff.mpr hm)
  events := (allComparable_perm (he.map _)).symm.trans h.events
  sightings := (allComparable_perm (hr.filterMap _)).symm.trans h.sightings

theorem Orderable.orderEvents (h : Orderable es rs) : orderEvents es = .ok (es.mergeSort eventBefore) :=
  if_pos h.events

theorem Orderable.orderSightings (h : Orderable es rs) :
    orderSightings rs = .ok (rs.mergeSort sightingBefore) :=
  if_pos h.sightings

theorem Orderable.extractorHistories (h : Orderable es rs) :
    extractorHistories (es.mergeSort eventBefore) = historiesOf (es.mergeSort eventBefore) := by
  have hs := h.perm (List.mergeSort_perm es eventBefore).symm (.refl rs)
  have hp := List.pairwise_mergeSort eventBefore_trans eventBefore_total es
  rw [Status.extractorHistories, requireMoments_eq_ok_iff.mpr hs.whole, hs.orderEvents,
    List.mergeSort_of_pairwise hp]
  rfl

theorem Orderable.blobStatus (h : Orderable es rs) :
    blobStatus blobId ingestId es rs stuck =
      summary blobId ingestId (es.mergeSort eventBefore) (rs.mergeSort sightingBefore) stuck := by
  cases es with
  | nil =>
    rw [List.mergeSort_nil]
    rfl
  | cons e es =>
    have hx := h.extractorHistories
    rw [Status.blobStatus, requireMoments_eq_ok_iff.mpr h.whole, h.orderEvents, h.orderSightings]
    generalize (e :: es).mergeSort eventBefore = ds at hx ⊢
    cases ds with
    | nil => rfl
    | cons d ds =>
      rw [summary, ← hx]
      rfl

theorem orderEvents_ok (h : orderEvents es = .ok es') :
    allComparable (es.map Event.moment) = true ∧ es' = es.mergeSort eventBefore := by
  unfold orderEvents at h
  split at h
  · exact ⟨‹_›, (Except.ok.inj h).symm⟩
  · cases h

theorem orderSightings_ok (h : orderSightings rs = .ok rs') :
    allComparable (rs.filterMap Sighting.time) = true ∧ rs' = rs.mergeSort sightingBefore := by
  unfold orderSightings at h
  split at h
  · exact ⟨‹_›, (Except.ok.inj h).symm⟩
  · cases h

theorem orderable_of_blobStatus {t : BlobStatus} (h : blobStatus blobId ingestId es rs stuck = .ok t) :
    Orderable es rs := by
  cases es with
  | nil => cases h
  | cons e es =>
    obtain ⟨_, hm, h⟩ := Lists.bind_eq_ok_iff.mp h
    obtain ⟨_, he, h⟩ := Lists.bind_eq_ok_iff.mp h
    obtain ⟨_, hr, -⟩ := Lists.bind_eq_ok_iff.mp h
    exact ⟨requireMoments_eq_ok_iff.mp hm, (orderEvents_ok he).1, (orderSightings_ok hr).1⟩

theorem blobStatus_eq_ok_iff {t : BlobStatus} :
    blobStatus blobId ingestId es rs stuck = .ok t ↔ Orderable es rs ∧
      summary blobId ingestId (es.mergeSort eventBefore) (rs.mergeSort sightingBefore) stuck = .ok t := by
  constructor
  · intro h
    have ho := orderable_of_blobStatus h
    exact ⟨ho, ho.blobStatus.symm.trans h⟩
  · rintro ⟨ho, h⟩
    exact ho.blobStatus.trans h

theorem orderable_of_stored (hes : Stored es) (hrs : StoredSightings rs) : Orderable es rs := by
  refine ⟨?_, ?_, ?_⟩
  · intro e he
    obtain ⟨r, rfl⟩ := hes.whole e he
    rfl
  · rw [allComparable_iff]
    intro s hs t ht
    obtain ⟨d, hd, rfl⟩ := List.mem_map.mp hs
    obtain ⟨e, he, rfl⟩ := List.mem_map.mp ht
    rw [Timestamp.Comparable, hes.offset hd, hes.offset he]
  · rw [allComparable_iff]
    intro s hs t ht
    obtain ⟨x, hx, hs⟩ := List.mem_filterMap.mp hs
    obtain ⟨y, hy, ht⟩ := List.mem_filterMap.mp ht
    obtain ⟨a, rfl⟩ := hrs.whole x hx
    obtain ⟨b, rfl⟩ := hrs.whole y hy
    cases hs
    cases ht
    rfl

theorem blobStatus_of_stored (hes : Stored es) (hrs : StoredSightings rs) :
    blobStatus blobId ingestId es rs stuck = summary blobId ingestId es rs stuck := by
  rw [(orderable_of_stored hes hrs).blobStatus, List.mergeSort_of_pairwise hes.order,
    List.mergeSort_of_pairwise hrs.order]

end

/-- The status of one blob in one ingestion, from all that a store gives out. -/
def summaryOf (es : List Event) (rs : List Sighting) (threshold : Int)
    (key : Option String × Option String) : Except Fault BlobStatus :=
  summary key.1 key.2 (es.filter fun e => e.key == key) (rs.filter fun r => r.key == key)
    (isStuck es threshold key.1)

theorem statusOf_of_stored {es : List Event} {rs : List Sighting} (hes : Stored es)
    (hrs : StoredSightings rs) (threshold : Int) (key : Option String × Option String) :
    statusOf es rs threshold key = summaryOf es rs threshold key :=
  blobStatus_of_stored (hes.filter _) (hrs.filter _)

theorem summary_eq_ok {blobId ingestId : Option String} {es : List Event} {rs : List Sighting}
    {stuck : Bool} {t : BlobStatus} (h : summary blobId ingestId es rs stuck = .ok t) :
    t.blobId = blobId ∧ t.ingestId = ingestId ∧
      ∃ e es', es = e :: es' ∧ t.start = earliest e.moment es ∧ t.latest = latest e.moment es := by
  cases es with
  | nil => cases h
  | cons e es =>
    cases stuck with
    | true =>
      cases h
      exact ⟨rfl, rfl, e, es, rfl, rfl, rfl⟩
    | false =>
      obtain ⟨_, -, h⟩ := Lists.bind_eq_ok_iff.mp h
      obtain ⟨_, -, h⟩ := Lists.bind_eq_ok_iff.mp h
      obtain ⟨_, -, h⟩ := Lists.bind_eq_ok_iff.mp h
      obtain ⟨_, -, h⟩ := Lists.bind_eq_ok_iff.mp h
      cases h
      exact ⟨rfl, rfl, e, es, rfl, rfl, rfl⟩

/-- The parts of a status of a blob that is not stuck. -/
structure Parts (es : List Event) (rs : List Sighting) (t : BlobStatus) : Prop where
  start : ∀ e ∈ es.head?, t.start = earliest e.moment es
  paths : t.paths = (sizesOf rs).map Prod.fst
  size : t.size = rs.getLast?.bind Sighting.size
  sizes : t.sizes = sizesOf rs
  workspace : latestDetail "workspaceName" es = .ok t.workspace
  mimeTypes : latestDetail "mimeTypes" es = .ok t.mimeTypes
  history : t.history = es.map historyItem
  extractors : historiesOf es = .ok t.extractors
  errors : errorsOf es = .ok t.errors
  stuck : t.stuck = false

theorem parts_of_summary {b i : Option String} {es : List Event} {rs : List Sighting} {t : BlobStatus}
    (h : summary b i es rs false = .ok t) : Parts es rs t := by
  cases es with
  | nil => cases h
  | cons e es =>
    obtain ⟨workspace, hw, h⟩ := Lists.bind_eq_ok_iff.mp h
    obtain ⟨mimeTypes, hm, h⟩ := Lists.bind_eq_ok_iff.mp h
    obtain ⟨extractors, hx, h⟩ := Lists.bind_eq_ok_iff.mp h
    obtain ⟨errors, he, h⟩ := Lists.bind_eq_ok_iff.mp h
    cases h
    refine ⟨?_, rfl, rfl, rfl, hw, hm, rfl, hx, he, rfl⟩
    intro d hd
    cases hd
    rfl

theorem earliest_mem (t : Timestamp) (es : List Event) :
    earliest t es = t ∨ ∃ e ∈ es, earliest t es = e.moment := by
  induction es generalizing t with
  | nil => exact .inl rfl
  | cons e es ih =>
    rw [earliest, List.foldl_cons]
    split
    · obtain h | ⟨d, hd, h⟩ := ih e.moment
      · exact .inr ⟨e, List.mem_cons_self, h⟩
      · exact .inr ⟨d, List.mem_cons_of_mem _ hd, h⟩
    · obtain h | ⟨d, hd, h⟩ := ih t
      · exact .inl h
      · exact .inr ⟨d, List.mem_cons_of_mem _ hd, h⟩

structure IsPlain (t : BlobStatus) : Prop where
  blob : t.blobId.isSome = true
  ingest : t.ingestId.isSome = true
  start : t.start.offset = none

theorem isPlain_of_summaryOf {es : List Event} {rs : List Sighting} (hes : Stored es) {threshold : Int}
    {key : Option String × Option String} {t : BlobStatus}
    (h : summaryOf es rs threshold key = .ok t) : IsPlain t := by
  obtain ⟨hb, hi, e, es', he, hs, -⟩ := summary_eq_ok h
  have hmem : e ∈ es.filter fun e => e.key == key := by
    rw [he]
    exact List.mem_cons_self
  have hkey : e.key = key := by simpa using (List.mem_filter.mp hmem).2
  obtain ⟨r, hr⟩ := hes.whole e (List.mem_filter.mp hmem).1
  subst hr
  refine ⟨?_, ?_, ?_⟩
  · rw [hb, ← hkey]
    rfl
  · rw [hi, ← hkey]
    rfl
  · rw [hs]
    obtain h | ⟨d, hd, h⟩ := earliest_mem r.toEvent.moment (es.filter fun e => e.key == key)
    · rw [h]
      rfl
    · rw [h]
      exact (hes.filter _).offset hd

theorem orderStatuses_of_plain {ts : List BlobStatus} (h : ∀ t ∈ ts, IsPlain t) :
    orderStatuses ts = .ok (ts.mergeSort statusBefore) := by
  have hk : (ts.all fun s => ts.all (keysComparable s)) = true := by
    simp only [List.all_eq_true]
    intro s hs t ht
    simp [keysComparable, namesComparable, (h s hs).blob, (h t ht).blob, (h s hs).ingest, (h t ht).ingest]
  have hc : allComparable (ts.map BlobStatus.start) = true := by
    rw [allComparable_iff]
    intro s hs t ht
    obtain ⟨d, hd, rfl⟩ := List.mem_map.mp hs
    obtain ⟨e, he, rfl⟩ := List.mem_map.mp ht
    rw [Timestamp.Comparable, (h d hd).start, (h e he).start]
  rw [orderStatuses, hk, hc]
  rfl

/-- From what a store gives out, each blob in each ingestion has its summary, and the summaries can be put
in order. -/
theorem reconstruct_of_stored {es : List Event} {rs : List Sighting} (hes : Stored es)
    (hrs : StoredSightings rs) (threshold : Int) :
    reconstruct es rs threshold =
      ((keysOf es).mapM (summaryOf es rs threshold)).map (·.mergeSort statusBefore) := by
  rw [reconstruct, Lists.mapM_congr fun k _ => statusOf_of_stored hes hrs threshold k]
  cases hm : (keysOf es).mapM (summaryOf es rs threshold) with
  | error f => rfl
  | ok ts =>
    exact orderStatuses_of_plain (Lists.forall_of_mapM (fun _ _ _ h => isPlain_of_summaryOf hes h) hm)

end Status
end Intake
