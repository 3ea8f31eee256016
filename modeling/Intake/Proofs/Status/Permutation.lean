import Intake.Proofs.Status.Locality
import Mathlib

/-!
# Statuses do not depend on the order of arrival

Events are told apart by their moments and numbers, and sightings by their moments. As long as no two of one
blob in one ingestion agree in these, statuses are the same in whatever order all of them come.
-/
namespace Intake.Status

/-- What puts events in order: the moment, and then the number, which is -1 for an event that has none. -/
def place (e : Event) : Int × Int := (e.moment.instant, numberOf e)

/-- No two events of a blob in an ingestion have one place, and no two sightings one moment. -/
structure Unambiguous (es : List Event) (rs : List Sighting) : Prop where
  events : ∀ key, ((es.filter fun e => e.key == key).map place).Nodup
  sightings : ∀ key, ((rs.filter fun r => r.key == key).map fun r => r.time.map Timestamp.instant).Nodup

theorem Unambiguous.perm {es es' : List Event} {rs rs' : List Sighting} (h : Unambiguous es rs)
    (he : es.Perm es') (hr : rs.Perm rs') : Unambiguous es' rs' where
  events key := (((he.filter _).map _).nodup_iff).mp (h.events key)
  sightings key := (((hr.filter _).map _).nodup_iff).mp (h.sightings key)

theorem place_eq_of_eventBefore {d e : Event} (h : eventBefore d e = true) (h' : eventBefore e d = true) :
    place d = place e := by
  simp only [eventBefore, decide_eq_true_eq] at h h'
  rw [place, place, Prod.mk.injEq]
  omega

theorem instant_eq_of_sightingBefore {r s : Sighting} (h : sightingBefore r s = true)
    (h' : sightingBefore s r = true) : r.time.map Timestamp.instant = s.time.map Timestamp.instant := by
  simp only [sightingBefore] at h h'
  cases hr : r.time <;> cases hs : s.time <;>
    simp only [hr, hs, decide_eq_true_eq, Bool.false_eq_true] at h h'
  · rfl
  · exact congrArg some (Int.le_antisymm h h')

theorem isStuck_perm {es es' : List Event} (h : es.Perm es') (threshold : Int) (b : Option String) :
    isStuck es threshold b = isStuck es' threshold b := by
  rw [isStuck, isStuck, h.countP_eq]

theorem statusOf_perm {es es' : List Event} {rs rs' : List Sighting} (h : Unambiguous es rs)
    (he : es.Perm es') (hr : rs.Perm rs') {threshold : Int} {key : Option String × Option String}
    {t : BlobStatus} (ht : statusOf es rs threshold key = .ok t) :
    statusOf es' rs' threshold key = .ok t := by
  obtain ⟨ho, ht⟩ := blobStatus_eq_ok_iff.mp ht
  refine blobStatus_eq_ok_iff.mpr ⟨ho.perm (he.filter _) (hr.filter _), ?_⟩
  have hes := Sorting.mergeSort_eq_of_perm eventBefore_trans eventBefore_total (h.events key)
    (fun _ _ _ _ => place_eq_of_eventBefore) (he.filter _)
  have hrs := Sorting.mergeSort_eq_of_perm sightingBefore_trans sightingBefore_total (h.sightings key)
    (fun _ _ _ _ => instant_eq_of_sightingBefore) (hr.filter _)
  rw [← isStuck_perm he, ← hes, ← hrs]
  exact ht

theorem eq_of_namesComparable {a b : Option String} (h : namesComparable a b = true)
    (hab : a.getD "" = b.getD "") : a = b := by
  cases a <;> cases b <;> simp_all [namesComparable]

theorem key_eq_of_statusBefore {s t : BlobStatus} (hk : keysComparable s t = true)
    (h : statusBefore s t = true) (h' : statusBefore t s = true) : s.key = t.key := by
  rw [statusBefore_iff] at h h'
  rw [keysComparable, Bool.and_eq_true, Bool.or_eq_true, bne_iff_ne] at hk
  have hn : s.blobId.getD "" = t.blobId.getD "" ∧ s.ingestId.getD "" = t.ingestId.getD "" := by grind
  have hb := eq_of_namesComparable hk.1 hn.1
  have hi := eq_of_namesComparable (hk.2.resolve_left fun hne => hne hb) hn.2
  exact Prod.ext hb hi

/-- Statuses of different blobs or ingestions can be put in only one order. -/
theorem orderStatuses_perm {ss ts : List BlobStatus} (hn : (ss.map BlobStatus.key).Nodup)
    (h : ss.Perm ts) : orderStatuses ss = orderStatuses ts := by
  have hk : (ss.all fun s => ss.all (keysComparable s)) = ts.all fun t => ts.all (keysComparable t) := by
    rw [h.all_eq]
    exact congrArg ts.all (funext fun s => h.all_eq)
  have hc := allComparable_perm (h.map BlobStatus.start)
  rw [orderStatuses, orderStatuses, ← hk, ← hc]
  split
  · rename_i ha
    have hk := (Bool.and_eq_true_iff.mp ha).1
    simp only [List.all_eq_true] at hk
    exact congrArg Except.ok (Sorting.mergeSort_eq_of_perm statusBefore_trans statusBefore_total hn
      (fun s hs t ht => key_eq_of_statusBefore (hk s hs t ht)) h)
  · rfl

theorem reconstruct_of_statusOf {es es' : List Event} {rs rs' : List Sighting} {threshold : Int}
    (hk : (keysOf es).Perm (keysOf es'))
    (hs : ∀ key t, statusOf es rs threshold key = .ok t → statusOf es' rs' threshold key = .ok t)
    {answer : List BlobStatus} (h : reconstruct es rs threshold = .ok answer) :
    reconstruct es' rs' threshold = .ok answer := by
  obtain ⟨ts, hts, ho⟩ := Lists.bind_eq_ok_iff.mp h
  obtain ⟨ts', hts', hp⟩ := Lists.mapM_perm hk (Lists.mapM_of_imp (fun key _ => hs key) hts)
  have hn : (ts.map BlobStatus.key).Nodup := by
    rw [Lists.map_of_mapM (fun _ _ => statusOf_key) hts]
    exact Lists.nodup_eraseDups _
  exact Lists.bind_eq_ok_iff.mpr ⟨ts', hts', (orderStatuses_perm hn hp).symm.trans ho⟩

theorem reconstruct_congr {es es' : List Event} {rs rs' : List Sighting} {threshold : Int}
    (hk : (keysOf es).Perm (keysOf es'))
    (hs : ∀ key t, statusOf es rs threshold key = .ok t ↔ statusOf es' rs' threshold key = .ok t)
    (answer : List BlobStatus) :
    reconstruct es rs threshold = .ok answer ↔ reconstruct es' rs' threshold = .ok answer :=
  ⟨reconstruct_of_statusOf hk fun key t => (hs key t).mp,
    reconstruct_of_statusOf hk.symm fun key t => (hs key t).mpr⟩

/-- Statuses do not depend on the order in which events and sightings come. One order gives an answer if
another does, and then it is the same answer. -/
theorem reconstruct_perm {es es' : List Event} {rs rs' : List Sighting} (h : Unambiguous es rs)
    (he : es.Perm es') (hr : rs.Perm rs') (threshold : Int) (answer : List BlobStatus) :
    reconstruct es rs threshold = .ok answer ↔ reconstruct es' rs' threshold = .ok answer := by
  refine reconstruct_congr (Lists.eraseDups_perm (he.map Event.key)) (fun key t => ⟨?_, ?_⟩) answer
  · exact statusOf_perm h he hr
  · exact statusOf_perm (h.perm he hr) he.symm hr.symm

theorem reconstruct_perm_of_tie :
    let event (status : EventStatus) (id : Int) : Event :=
      { Event.runExtractor (some "b") (some "i") "x" status [] with
        time := some (.withoutOffset 5), id := some id }
    let sighting (size : Int) (w : WallTime) : Sighting :=
      ⟨some "i", some "b", some size, some "/f", some (.withoutOffset w)⟩
    let t := Timestamp.withoutOffset 5
    let history : List HistoryItem := [⟨t, "RunExtractor", "Started"⟩, ⟨t, "RunExtractor", "Success"⟩]
    reconstruct [event .success 9, event .started 7] [sighting 2 4, sighting 1 3] 100 =
      .ok [⟨some "b", some "i", t, t, [some "/f"], some 2, [(some "/f", some 2)], none, none, history, [], [],
        false⟩] := by
  intro event sighting t history
  have h : Unambiguous [event .started 7, event .success 9] [sighting 1 3, sighting 2 4] := by
    constructor <;> intro key <;> apply List.Nodup.sublist (List.filter_sublist.map _) <;> decide
  exact (reconstruct_perm h (.swap ..) (.swap ..) 100 _).mp (by cbv)

/-- It makes no difference whether all is put in order beforehand. -/
theorem reconstruct_mergeSort (es : List Event) (rs : List Sighting) (threshold : Int)
    (answer : List BlobStatus) :
    reconstruct (es.mergeSort eventBefore) (rs.mergeSort sightingBefore) threshold = .ok answer ↔
      reconstruct es rs threshold = .ok answer := by
  have he := List.mergeSort_perm es eventBefore
  have hr := List.mergeSort_perm rs sightingBefore
  refine reconstruct_congr (Lists.eraseDups_perm (he.map Event.key)) (fun key t => ?_) answer
  have hes := Sorting.mergeSort_filter_mergeSort eventBefore_trans eventBefore_total (·.key == key) es
  have hrs := Sorting.mergeSort_filter_mergeSort sightingBefore_trans sightingBefore_total (·.key == key) rs
  have ho : Orderable ((es.mergeSort eventBefore).filter fun e => e.key == key)
      ((rs.mergeSort sightingBefore).filter fun r => r.key == key) ↔
      Orderable (es.filter fun e => e.key == key) (rs.filter fun r => r.key == key) :=
    ⟨fun h => h.perm (he.filter _) (hr.filter _), fun h => h.perm (he.filter _).symm (hr.filter _).symm⟩
  rw [statusOf, statusOf, blobStatus_eq_ok_iff, blobStatus_eq_ok_iff, ho, hes, hrs, isStuck_perm he]

theorem orderable_unnumbered {es : List Event} {rs : List Sighting} :
    Orderable (es.map Event.unnumbered) rs ↔ Orderable es rs := by
  have hm : (es.map Event.unnumbered).map Event.moment = es.map Event.moment := by
    rw [List.map_map]
    rfl
  constructor
  · rintro ⟨hw, he, hr⟩
    exact ⟨List.forall_mem_map.mp hw, hm ▸ he, hr⟩
  · rintro ⟨hw, he, hr⟩
    exact ⟨List.forall_mem_map.mpr hw, hm.symm ▸ he, hr⟩

theorem mergeSort_unnumbered {es : List Event}
    (h : es.Pairwise fun d e => eventBefore d e = eventBefore d.unnumbered e.unnumbered) :
    (es.map Event.unnumbered).mergeSort eventBefore = (es.mergeSort eventBefore).map Event.unnumbered := by
  rw [Sorting.mergeSort_congr_of_pairwise eventBefore_trans eventBefore_total
    (fun d e f => eventBefore_trans d.unnumbered e.unnumbered f.unnumbered)
    (fun d e => eventBefore_total d.unnumbered e.unnumbered) h]
  exact (List.map_mergeSort (f := Event.unnumbered) fun _ _ _ _ => rfl).symm

theorem reconstruct_unnumbered {es : List Event}
    (h : es.Pairwise fun d e => eventBefore d e = eventBefore d.unnumbered e.unnumbered)
    (rs : List Sighting) (threshold : Int) (answer : List BlobStatus) :
    reconstruct (es.map Event.unnumbered) rs threshold = .ok answer ↔
      reconstruct es rs threshold = .ok answer := by
  refine reconstruct_congr (by rw [keysOf_unnumbered]) (fun key t => ?_) answer
  have hf : (es.map Event.unnumbered).filter (fun e => e.key == key) =
      (es.filter fun e => e.key == key).map Event.unnumbered := by
    rw [List.filter_map]
    rfl
  rw [statusOf, statusOf, blobStatus_eq_ok_iff, blobStatus_eq_ok_iff, hf, orderable_unnumbered,
    mergeSort_unnumbered (h.filter _), summary_unnumbered, isStuck_unnumbered]

end Intake.Status
