import Intake.Proofs.Status.Summary
import Intake.Proofs.Sorting

/-!
# Statuses are local

The status of a blob depends on its own events and sightings, and on the numbers of events only through
the order in which they stand. So blobs can be left out before or after statuses are built.
-/
namespace Intake

def Event.unnumbered (e : Event) : Event := { e with id := none }

namespace Status

theorem firstDetail_unnumbered (name : String) (es : List Event) :
    firstDetail name (es.map Event.unnumbered) = firstDetail name es := by
  induction es with
  | nil => rfl
  | cons e es ih =>
    rw [List.map_cons, firstDetail, firstDetail, ih]
    rfl

theorem latestDetail_unnumbered (name : String) (es : List Event) :
    latestDetail name (es.map Event.unnumbered) = latestDetail name es := by
  rw [latestDetail, latestDetail, ← List.map_reverse, firstDetail_unnumbered]

theorem namedExtractors_unnumbered (es : List Event) :
    namedExtractors (es.map Event.unnumbered) = namedExtractors es := by
  rw [namedExtractors, namedExtractors, List.filter_map, List.mapM_map]
  rfl

theorem historyOf_unnumbered (es : List Event) (x : Value) :
    historyOf (es.map Event.unnumbered) x = historyOf es x := by
  rw [historyOf, historyOf, List.mapM_map]
  rfl

theorem historiesOf_unnumbered (es : List Event) :
    historiesOf (es.map Event.unnumbered) = historiesOf es := by
  rw [historiesOf, historiesOf, namedExtractors_unnumbered]
  congr 1
  funext names
  exact congrArg (names.mapM ·) (funext (historyOf_unnumbered es))

theorem errorsOf_unnumbered (es : List Event) : errorsOf (es.map Event.unnumbered) = errorsOf es := by
  rw [errorsOf, errorsOf, List.mapM_map]
  rfl

theorem earliest_unnumbered (t : Timestamp) (es : List Event) :
    earliest t (es.map Event.unnumbered) = earliest t es := by
  rw [earliest, earliest, List.foldl_map]
  rfl

theorem latest_unnumbered (t : Timestamp) (es : List Event) :
    latest t (es.map Event.unnumbered) = latest t es := by
  rw [latest, latest, List.foldl_map]
  rfl

theorem outline_unnumbered (b i : Option String) (e : Event) (es : List Event) (rs : List Sighting)
    (stuck : Bool) :
    outline b i e.unnumbered (es.map Event.unnumbered) rs stuck = outline b i e es rs stuck := by
  rw [outline, outline, earliest_unnumbered, latest_unnumbered]
  rfl

theorem summary_unnumbered (b i : Option String) (es : List Event) (rs : List Sighting) (stuck : Bool) :
    summary b i (es.map Event.unnumbered) rs stuck = summary b i es rs stuck := by
  cases es with
  | nil => rfl
  | cons e es =>
    have ho := outline_unnumbered b i e (e :: es) rs stuck
    have hw := latestDetail_unnumbered "workspaceName" (e :: es)
    have hm := latestDetail_unnumbered "mimeTypes" (e :: es)
    have hx := historiesOf_unnumbered (e :: es)
    have he := errorsOf_unnumbered (e :: es)
    have hh : ((e :: es).map Event.unnumbered).map historyItem = (e :: es).map historyItem := by
      rw [List.map_map]
      rfl
    rw [List.map_cons] at *
    rw [summary, summary, ho, hw, hm, hx, he, hh]

theorem isStuck_unnumbered (es : List Event) (threshold : Int) (b : Option String) :
    isStuck (es.map Event.unnumbered) threshold b = isStuck es threshold b := by
  rw [isStuck, isStuck, List.countP_map]
  rfl

theorem keysOf_unnumbered (es : List Event) : keysOf (es.map Event.unnumbered) = keysOf es := by
  rw [keysOf, keysOf, List.map_map]
  rfl

theorem summaryOf_unnumbered (es : List Event) (rs : List Sighting) (threshold : Int)
    (key : Option String × Option String) :
    summaryOf (es.map Event.unnumbered) rs threshold key = summaryOf es rs threshold key := by
  rw [summaryOf, summaryOf, isStuck_unnumbered, List.filter_map, summary_unnumbered]
  rfl

theorem reconstruct_renumbered {es es' : List Event} {rs : List Sighting} (hes : Stored es)
    (hes' : Stored es') (hrs : StoredSightings rs)
    (h : es.map Event.unnumbered = es'.map Event.unnumbered) (threshold : Int) :
    reconstruct es rs threshold = reconstruct es' rs threshold := by
  have hs : summaryOf es rs threshold = summaryOf es' rs threshold := by
    funext key
    rw [← summaryOf_unnumbered, h, summaryOf_unnumbered]
  rw [reconstruct_of_stored hes hrs, reconstruct_of_stored hes' hrs, hs, ← keysOf_unnumbered es, h,
    keysOf_unnumbered]

theorem statusBefore_iff {s t : BlobStatus} :
    statusBefore s t = true ↔ t.start.instant < s.start.instant ∨
      (s.start.instant = t.start.instant ∧ (s.blobId.getD "" < t.blobId.getD "" ∨
        (s.blobId.getD "" ≤ t.blobId.getD "" ∧ s.ingestId.getD "" ≤ t.ingestId.getD ""))) := by
  simp only [statusBefore, nameBefore, Bool.or_eq_true, Bool.and_eq_true, Bool.not_eq_true',
    decide_eq_true_eq, decide_eq_false_iff_not, beq_iff_eq, String.not_lt]

theorem statusBefore_trans (s t u : BlobStatus) (h : statusBefore s t = true)
    (h' : statusBefore t u = true) : statusBefore s u = true := by
  rw [statusBefore_iff] at *
  grind

theorem statusBefore_total (s t : BlobStatus) : (statusBefore s t || statusBefore t s) = true := by
  rw [Bool.or_eq_true, statusBefore_iff, statusBefore_iff]
  grind

theorem keysOf_filter (es : List Event) (p : Option String × Option String → Bool) :
    keysOf (es.filter fun e => p e.key) = (keysOf es).filter p := by
  rw [keysOf, keysOf, ← Lists.eraseDups_filter, List.filter_map]
  rfl

/-- What is said of other blobs does not matter to the status of one. -/
theorem summaryOf_without {key : Option String × Option String} {b : String} (h : key.1 ≠ some b)
    (es : List Event) (rs : List Sighting) (threshold : Int) :
    summaryOf (es.filter fun e => e.blobId != some b) (rs.filter fun r => r.blobId != some b) threshold key =
      summaryOf es rs threshold key := by
  have hk {k : Option String × Option String} (hk : (k == key) = true) : (k.1 != some b) = true := by
    rw [eq_of_beq hk]
    exact bne_iff_ne.mpr h
  have he : ((es.filter fun e => e.blobId != some b).filter fun e => e.key == key) =
      es.filter fun e => e.key == key := Lists.filter_filter_of_imp (fun _ => hk) es
  have hr : ((rs.filter fun r => r.blobId != some b).filter fun r => r.key == key) =
      rs.filter fun r => r.key == key := Lists.filter_filter_of_imp (fun _ => hk) rs
  have hs : isStuck (es.filter fun e => e.blobId != some b) threshold key.1 =
      isStuck es threshold key.1 := by
    rw [isStuck, isStuck, List.countP_eq_length_filter, List.countP_eq_length_filter,
      Lists.filter_filter_of_imp]
    intro e hb
    rw [eq_of_beq hb]
    exact bne_iff_ne.mpr h
  rw [summaryOf, summaryOf, he, hr, hs]

/-- Leaving a blob out of what is stored leaves its entries out of the answer. -/
theorem reconstruct_without {es : List Event} {rs : List Sighting} (hes : Stored es)
    (hrs : StoredSightings rs) {threshold : Int} {answer : List BlobStatus}
    (h : reconstruct es rs threshold = .ok answer) (b : String) :
    reconstruct (es.filter fun e => e.blobId != some b) (rs.filter fun r => r.blobId != some b) threshold =
      .ok (answer.filter fun t => t.blobId != some b) := by
  rw [reconstruct_of_stored hes hrs] at h
  rw [reconstruct_of_stored (hes.filter _) (hrs.filter _)]
  cases hm : (keysOf es).mapM (summaryOf es rs threshold) with
  | error f =>
    rw [hm] at h
    cases h
  | ok ts =>
    rw [hm] at h
    cases h
    have hk := Lists.mapM_filter (p := fun key => key.1 != some b) (q := fun t => t.blobId != some b)
      (fun key t ht => by rw [(summary_eq_ok ht).1]) hm
    have hf : keysOf (es.filter fun e => e.blobId != some b) =
        (keysOf es).filter fun key => key.1 != some b := keysOf_filter es fun key => key.1 != some b
    have hc : (keysOf (es.filter fun e => e.blobId != some b)).mapM
        (summaryOf (es.filter fun e => e.blobId != some b) (rs.filter fun r => r.blobId != some b) threshold) =
        .ok (ts.filter fun t => t.blobId != some b) := by
      rw [← hk, ← hf]
      apply Lists.mapM_congr
      intro key hkey
      apply summaryOf_without
      rw [hf] at hkey
      exact bne_iff_ne.mp (List.mem_filter.mp hkey).2
    rw [hc, Sorting.filter_mergeSort statusBefore_trans statusBefore_total]
    rfl

theorem statusOf_key {es : List Event} {rs : List Sighting} {threshold : Int}
    {key : Option String × Option String} {t : BlobStatus}
    (h : statusOf es rs threshold key = .ok t) : t.key = key := by
  obtain ⟨-, h⟩ := blobStatus_eq_ok_iff.mp h
  obtain ⟨hb, hi, -⟩ := summary_eq_ok h
  rw [BlobStatus.key, hb, hi]

theorem orderStatuses_ok {ss ts : List BlobStatus} (h : orderStatuses ss = .ok ts) :
    (∀ s ∈ ss, ∀ t ∈ ss, keysComparable s t = true ∧ s.start.Comparable t.start) ∧
      ts = ss.mergeSort statusBefore := by
  unfold orderStatuses at h
  split at h
  · rename_i hc
    obtain ⟨hk, hc⟩ := Bool.and_eq_true_iff.mp hc
    simp only [List.all_eq_true] at hk
    rw [allComparable_iff] at hc
    have hc (s : BlobStatus) (hs : s ∈ ss) (t : BlobStatus) (ht : t ∈ ss) : s.start.Comparable t.start :=
      hc _ (List.mem_map_of_mem hs) _ (List.mem_map_of_mem ht)
    exact ⟨fun s hs t ht => ⟨hk s hs t ht, hc s hs t ht⟩, (Except.ok.inj h).symm⟩
  · cases h

theorem reconstruct_ok {es : List Event} {rs : List Sighting} {threshold : Int} {answer : List BlobStatus}
    (h : reconstruct es rs threshold = .ok answer) :
    ∃ ts, ts.map BlobStatus.key = keysOf es ∧ (∀ t ∈ ts, statusOf es rs threshold t.key = .ok t) ∧
      orderStatuses ts = .ok answer := by
  obtain ⟨ts, hts, ho⟩ := Lists.bind_eq_ok_iff.mp h
  refine ⟨ts, Lists.map_of_mapM (fun _ _ => statusOf_key) hts, ?_, ho⟩
  refine Lists.forall_of_mapM (fun key _ t ht => ?_) hts
  rwa [statusOf_key ht]

theorem entries_of_reconstruct {es : List Event} {rs : List Sighting} {threshold : Int}
    {answer : List BlobStatus} (h : reconstruct es rs threshold = .ok answer) :
    (answer.map BlobStatus.key).Perm (keysOf es) ∧
      ∀ t ∈ answer, statusOf es rs threshold t.key = .ok t := by
  obtain ⟨ts, hk, hs, ho⟩ := reconstruct_ok h
  obtain ⟨-, rfl⟩ := orderStatuses_ok ho
  rw [← hk]
  exact ⟨(List.mergeSort_perm ts _).map _, fun t ht => hs t (List.mem_mergeSort.mp ht)⟩

theorem mem_keysOf {es : List Event} {key : Option String × Option String} :
    key ∈ keysOf es ↔ ∃ e ∈ es, e.key = key := by
  rw [keysOf, List.mem_eraseDups, List.mem_map]

theorem mem_keysOf_iff {es : List Event} {key : Option String × Option String} :
    key ∈ keysOf es ↔ (es.filter fun e => e.key == key) ≠ [] := by
  rw [mem_keysOf, Ne, List.filter_eq_nil_iff]
  simp

theorem exists_reconstruct_iff {es : List Event} {rs : List Sighting} (hes : Stored es)
    (hrs : StoredSightings rs) {threshold : Int} :
    (∃ answer, reconstruct es rs threshold = .ok answer) ↔
      ∀ key ∈ keysOf es, ∃ t, summaryOf es rs threshold key = .ok t := by
  rw [reconstruct_of_stored hes hrs]
  constructor
  · rintro ⟨answer, h⟩ key hk
    cases hm : (keysOf es).mapM (summaryOf es rs threshold) with
    | error f =>
      rw [hm] at h
      cases h
    | ok ts =>
      obtain ⟨t, -, ht⟩ := Lists.exists_of_mapM hm key hk
      exact ⟨t, ht⟩
  · intro h
    obtain ⟨ts, hts⟩ := Lists.exists_mapM h
    rw [hts]
    exact ⟨_, rfl⟩

theorem reconstruct_entry {es : List Event} {rs : List Sighting} (hes : Stored es)
    (hrs : StoredSightings rs) {threshold : Int}
    (h : ∀ key ∈ keysOf es, ∃ t, summaryOf es rs threshold key = .ok t)
    {key : Option String × Option String} (hk : key ∈ keysOf es) {t : BlobStatus}
    (ht : summaryOf es rs threshold key = .ok t) :
    ∃ answer, reconstruct es rs threshold = .ok answer ∧
      (answer.filter fun t => (t.blobId, t.ingestId) == key) = [t] := by
  obtain ⟨ts, hts⟩ := Lists.exists_mapM h
  have hone : (keysOf es).filter (· == key) = [key] := by
    have hd : (keysOf es).Nodup := Lists.nodup_eraseDups _
    rw [List.filter_beq, hd.count, if_pos hk]
    rfl
  have hm := Lists.mapM_filter (p := (· == key)) (q := fun t : BlobStatus => (t.blobId, t.ingestId) == key)
    (fun key' t' ht' => by rw [(summary_eq_ok ht').1, (summary_eq_ok ht').2.1]) hts
  rw [hone, Lists.mapM_ok fun k hk => (List.mem_singleton.mp hk) ▸ ht] at hm
  refine ⟨ts.mergeSort statusBefore, ?_, ?_⟩
  · rw [reconstruct_of_stored hes hrs, hts]
    rfl
  · rw [Sorting.filter_mergeSort statusBefore_trans statusBefore_total, ← Except.ok.inj hm]
    exact List.mergeSort_singleton t

end Status
end Intake
