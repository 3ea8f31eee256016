import Intake.Event

/-!
# The order of events and sightings

Events come in the order of their moments, and those of one moment in the order of their numbers.
Sightings come in the order of their moments, those without one last. Moments that cannot be compared
make a list impossible to put in order.
-/
namespace Intake.Status

/-- Whether any two of some moments can be compared. -/
def allComparable (ts : List Timestamp) : Bool :=
  ts.all (fun t => t.offset.isSome) || ts.all fun t => t.offset.isNone

/-- The number of an event, one below all numbers if it has none. -/
def numberOf (e : Event) : Int := e.id.getD (-1)

def eventBefore (d e : Event) : Bool :=
  decide (d.moment.instant < e.moment.instant ∨
    (d.moment.instant = e.moment.instant ∧ numberOf d ≤ numberOf e))

def orderEvents (es : List Event) : Except Fault (List Event) :=
  if allComparable (es.map Event.moment) then .ok (es.mergeSort eventBefore) else .error .noOrder

def sightingBefore (r s : Sighting) : Bool :=
  match r.time, s.time with
  | _, none => true
  | none, some _ => false
  | some t, some u => decide (t.instant ≤ u.instant)

def orderSightings (rs : List Sighting) : Except Fault (List Sighting) :=
  if allComparable (rs.filterMap Sighting.time) then .ok (rs.mergeSort sightingBefore)
  else .error .noOrder

/-- The events have a moment each, or else a fault counts those that have none. -/
def requireMoments (es : List Event) : Except Fault Unit :=
  match es.filter fun e => e.time.isNone with
  | [] => .ok ()
  | e :: rest => .error (.unstoredEvents (rest.length + 1) (Value.textOrNone e.blobId))

theorem allComparable_iff {ts : List Timestamp} :
    allComparable ts = true ↔ ∀ s ∈ ts, ∀ t ∈ ts, s.Comparable t := by
  simp only [allComparable, Bool.or_eq_true, List.all_eq_true, Timestamp.Comparable]
  constructor
  · rintro (h | h) s hs t ht
    · rw [h s hs, h t ht]
    · have := h s hs
      have := h t ht
      simp_all
  · intro h
    by_cases hx : ∃ t ∈ ts, t.offset.isSome = true
    · obtain ⟨t, ht, hs⟩ := hx
      exact .inl fun s hm => (h s hm t ht).trans hs
    · refine .inr fun t ht => ?_
      rw [Option.isNone_iff_eq_none, ← Option.not_isSome_iff_eq_none]
      exact fun hs => hx ⟨t, ht, hs⟩

theorem requireMoments_eq_ok_iff {es : List Event} :
    requireMoments es = .ok () ↔ ∀ e ∈ es, e.time.isSome = true := by
  unfold requireMoments
  split
  · rename_i h
    rw [List.filter_eq_nil_iff] at h
    simpa [Option.isSome_iff_ne_none] using h
  · rename_i e rest h
    simp only [reduceCtorEq, false_iff]
    intro hall
    have hm : e ∈ es.filter fun e => e.time.isNone := by rw [h]; simp
    rw [List.mem_filter] at hm
    have := hall e hm.1
    simp_all

end Intake.Status
