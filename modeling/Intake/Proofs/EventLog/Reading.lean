import Intake.Proofs.EventLog.Writes
import Intake.Proofs.Sorting
import Intake.Status.Query

/-!
# What a store gives out

Events and sightings come out whole, in the order in which statuses are built from them.
-/
namespace Intake

/-- Events as a store gives them out. -/
structure Status.Stored (es : List Event) : Prop where
  whole : ∀ e ∈ es, ∃ r : EventRow, e = r.toEvent
  order : es.Pairwise fun d e => eventBefore d e = true

/-- Sightings as a store gives them out. -/
structure Status.StoredSightings (rs : List Sighting) : Prop where
  whole : ∀ s ∈ rs, ∃ r : SightingRow, s = r.toSighting
  order : rs.Pairwise fun r s => sightingBefore r s = true

theorem Status.Stored.filter {es : List Event} (h : Stored es) (p : Event → Bool) :
    Stored (es.filter p) :=
  ⟨fun e he => h.whole e (List.mem_filter.mp he).1, h.order.filter p⟩

theorem Status.StoredSightings.filter {rs : List Sighting} (h : StoredSightings rs)
    (p : Sighting → Bool) : StoredSightings (rs.filter p) :=
  ⟨fun r hr => h.whole r (List.mem_filter.mp hr).1, h.order.filter p⟩

@[simp] theorem EventRow.instant_moment (r : EventRow) : r.toEvent.moment.instant = r.time := by
  simp [toEvent, Event.moment, Timestamp.withoutOffset, Timestamp.instant]

@[simp] theorem EventRow.numberOf_toEvent (r : EventRow) : Status.numberOf r.toEvent = r.id := rfl

theorem Status.eventBefore_trans (d e f : Event) (h : eventBefore d e = true)
    (h' : eventBefore e f = true) : eventBefore d f = true := by
  simp only [eventBefore, decide_eq_true_eq] at *
  omega

theorem Status.eventBefore_total (d e : Event) : (eventBefore d e || eventBefore e d) = true := by
  simp only [eventBefore, Bool.or_eq_true, decide_eq_true_eq]
  omega

theorem Status.sightingBefore_trans (r s t : Sighting) (h : sightingBefore r s = true)
    (h' : sightingBefore s t = true) : sightingBefore r t = true := by
  simp only [sightingBefore] at *
  cases hr : r.time <;> cases hs : s.time <;> cases ht : t.time <;>
    simp only [hr, hs, ht, decide_eq_true_eq, Bool.false_eq_true] at *
  exact Int.le_trans h h'

theorem Status.sightingBefore_total (r s : Sighting) :
    (sightingBefore r s || sightingBefore s r) = true := by
  simp only [sightingBefore]
  cases r.time <;> cases s.time <;> simp only [Bool.or_true, Bool.true_or, Bool.or_eq_true, decide_eq_true_eq]
  exact Int.le_total ..

namespace Store

theorem placedBefore_trans (a b c : Nat × Nat) (h : placedBefore a b = true)
    (h' : placedBefore b c = true) : placedBefore a c = true := by
  simp only [placedBefore, decide_eq_true_eq] at *
  omega

theorem placedBefore_total (a b : Nat × Nat) : (placedBefore a b || placedBefore b a) = true := by
  simp only [placedBefore, Bool.or_eq_true, decide_eq_true_eq]
  omega

theorem eventBefore_toEvent (r t : EventRow) :
    Status.eventBefore r.toEvent t.toEvent = placedBefore (r.time, r.id) (t.time, t.id) := by
  rw [Status.eventBefore, placedBefore, r.instant_moment, t.instant_moment, r.numberOf_toEvent,
    t.numberOf_toEvent, decide_eq_decide]
  generalize r.time = a, t.time = b
  constructor
  · intro h
    exact h.imp Int.ofNat_lt.mp fun h => ⟨Int.ofNat_inj.mp h.1, Int.ofNat_le.mp h.2⟩
  · intro h
    exact h.imp Int.ofNat_lt.mpr fun h => ⟨Int.ofNat_inj.mpr h.1, Int.ofNat_le.mpr h.2⟩

theorem sightingBefore_toSighting (r t : SightingRow) :
    Status.sightingBefore r.toSighting t.toSighting = decide (r.time ≤ t.time) := by
  simp [Status.sightingBefore, SightingRow.toSighting, Timestamp.withoutOffset, Timestamp.instant]

theorem stored_eventsIn (s : Store) (scope : Scope) : Status.Stored (s.eventsIn scope) := by
  constructor
  · intro e he
    obtain ⟨r, -, rfl⟩ := List.mem_map.mp he
    exact ⟨r, rfl⟩
  · rw [eventsIn, List.pairwise_map]
    refine List.Pairwise.imp ?_ (List.pairwise_mergeSort ?_ ?_ _)
    · exact fun h => (eventBefore_toEvent _ _).trans h
    · exact fun r t u => placedBefore_trans _ _ _
    · exact fun r t => placedBefore_total _ _

theorem stored_sightingsIn (s : Store) (scope : Scope) :
    Status.StoredSightings (s.sightingsIn scope) := by
  constructor
  · intro e he
    obtain ⟨r, -, rfl⟩ := List.mem_map.mp he
    exact ⟨r, rfl⟩
  · rw [sightingsIn, List.pairwise_map]
    refine List.Pairwise.imp ?_ (List.pairwise_mergeSort ?_ ?_ _)
    · intro r t h
      rw [sightingBefore_toSighting]
      simp only [placedBefore, decide_eq_true_eq] at h ⊢
      exact h.elim Nat.le_of_lt fun h => Nat.le_of_eq h.1
    · exact fun r t u => placedBefore_trans _ _ _
    · exact fun r t => placedBefore_total _ _

/-- The store after a query, which was carried out or refused. -/
def asked (s : Store) : Store :=
  { s with disturbances := { s.disturbances with query := s.disturbances.query.rest } }

theorem run_query (refuse : String → Fault) (s : Store) :
    (query refuse).run s = (match s.disturbances.query 0 with
      | none => .ok ()
      | some words => .error (refuse words), s.asked) :=
  run_actOn (·.query) (fun d x => { d with query := x }) refuse s

theorem run_readEvents_of_none {s : Store} (h : s.disturbances.query 0 = none) (scope : Scope) :
    (readEvents scope).run s = (.ok (s.eventsIn scope), s.asked) := by
  rw [readEvents, Action.run_bind, run_query, h]
  rfl

theorem run_readEvents_of_some {s : Store} {words : String} (h : s.disturbances.query 0 = some words)
    (scope : Scope) : (readEvents scope).run s = (.error (.eventsNotRead scope.text words), s.asked) := by
  rw [readEvents, Action.run_bind, run_query, h]

theorem run_readSightings_of_none {s : Store} (h : s.disturbances.query 0 = none) (scope : Scope) :
    (readSightings scope).run s = (.ok (s.sightingsIn scope), s.asked) := by
  rw [readSightings, Action.run_bind, run_query, h]
  rfl

theorem run_readSightings_of_some {s : Store} {words : String} (h : s.disturbances.query 0 = some words)
    (scope : Scope) :
    (readSightings scope).run s = (.error (.sightingsNotRead scope.text words), s.asked) := by
  rw [readSightings, Action.run_bind, run_query, h]

/-- Reading gives what is stored, or it is refused. Neither changes the tables. -/
theorem readEvents_cases (scope : Scope) (s : Store) :
    ∃ d : Disturbances, (readEvents scope).run s = (.ok (s.eventsIn scope), { s with disturbances := d }) ∨
      ∃ words, (readEvents scope).run s =
        (.error (.eventsNotRead scope.text words), { s with disturbances := d }) := by
  refine ⟨s.asked.disturbances, ?_⟩
  cases h : s.disturbances.query 0 with
  | none => exact .inl (run_readEvents_of_none h scope)
  | some words => exact .inr ⟨words, run_readEvents_of_some h scope⟩

theorem readSightings_cases (scope : Scope) (s : Store) :
    ∃ d : Disturbances,
      (readSightings scope).run s = (.ok (s.sightingsIn scope), { s with disturbances := d }) ∨
      ∃ words, (readSightings scope).run s =
        (.error (.sightingsNotRead scope.text words), { s with disturbances := d }) := by
  refine ⟨s.asked.disturbances, ?_⟩
  cases h : s.disturbances.query 0 with
  | none => exact .inl (run_readSightings_of_none h scope)
  | some words => exact .inr ⟨words, run_readSightings_of_some h scope⟩

theorem asked_of_never {s : Store} (h : s.disturbances.query = .never) : s.asked = s := by
  obtain ⟨es, rs, c, ⟨i, d, m, q⟩⟩ := s
  cases h
  rfl

theorem run_readEvents {s : Store} (h : s.disturbances.query = .never) (scope : Scope) :
    (readEvents scope).run s = (.ok (s.eventsIn scope), s) := by
  rw [run_readEvents_of_none (congrFun h 0), asked_of_never h]

theorem run_readSightings {s : Store} (h : s.disturbances.query = .never) (scope : Scope) :
    (readSightings scope).run s = (.ok (s.sightingsIn scope), s) := by
  rw [run_readSightings_of_none (congrFun h 0), asked_of_never h]

theorem run_statuses {s : Store} (h : s.disturbances.query = .never) (scope : Scope) (threshold : Int) :
    (log.statuses scope threshold).run s =
      (Status.reconstruct (s.eventsIn scope) (s.sightingsIn scope) threshold, s) := by
  rw [EventLog.statuses, log, Action.run_bind_of_ok (run_readEvents h scope),
    Action.run_bind_of_ok (run_readSightings h scope), Action.run_ofExcept]

theorem mem_eventsIn_iff {s : Store} {scope : Scope} {e : Event} :
    e ∈ s.eventsIn scope ↔ ∃ r ∈ s.events, inScope scope r.ingestId = true ∧ r.toEvent = e := by
  simp only [eventsIn, List.mem_map, List.mem_mergeSort, List.mem_filter, and_assoc]

/-- Asked about statuses, a store tells what is built from its tables, or which of the two queries the
database refused. -/
theorem statuses_cases (s : Store) (scope : Scope) (threshold : Int) :
    (s.disturbances.query 0 = none ∧ s.disturbances.query 1 = none ∧
        ((log.statuses scope threshold).run s).1 =
          Status.reconstruct (s.eventsIn scope) (s.sightingsIn scope) threshold) ∨
      ∃ f words, ((log.statuses scope threshold).run s).1 = .error f ∧ f.kind = .storageRead ∧
        f.cause? = some words ∧ (s.disturbances.query 0 = some words ∨
          s.disturbances.query 0 = none ∧ s.disturbances.query 1 = some words) := by
  rw [EventLog.statuses, log]
  cases h₀ : s.disturbances.query 0 with
  | some words =>
    rw [Action.run_bind_of_error (run_readEvents_of_some h₀ scope)]
    exact .inr ⟨_, words, rfl, rfl, rfl, .inl rfl⟩
  | none =>
    rw [Action.run_bind_of_ok (run_readEvents_of_none h₀ scope)]
    -- The second query is the first that the store is asked after the first.
    cases h₁ : s.asked.disturbances.query 0 with
    | some words =>
      rw [Action.run_bind_of_error (run_readSightings_of_some h₁ scope)]
      exact .inr ⟨_, words, rfl, rfl, rfl, .inr ⟨rfl, h₁⟩⟩
    | none =>
      rw [Action.run_bind_of_ok (run_readSightings_of_none h₁ scope), Action.run_ofExcept]
      exact .inl ⟨rfl, h₁, rfl⟩

theorem statuses_eq_ok_iff {s : Store} {scope : Scope} {threshold : Int} {answer : List BlobStatus} :
    ((log.statuses scope threshold).run s).1 = .ok answer ↔
      s.disturbances.query 0 = none ∧ s.disturbances.query 1 = none ∧
        Status.reconstruct (s.eventsIn scope) (s.sightingsIn scope) threshold = .ok answer := by
  obtain ⟨h₀, h₁, hr⟩ | ⟨f, words, hr, -, -, hq⟩ := s.statuses_cases scope threshold
  · rw [hr]
    exact ⟨fun h => ⟨h₀, h₁, h⟩, fun h => h.2.2⟩
  · rw [hr]
    constructor
    · exact nofun
    · rintro ⟨h₀, h₁, -⟩
      rcases hq with hq | ⟨-, hq⟩
      · cases h₀.symm.trans hq
      · cases h₁.symm.trans hq

end Store
end Intake
