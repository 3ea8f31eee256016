import Intake.Proofs.EventLog.Atomicity
import Intake.Proofs.EventLog.Chronology
import Intake.Proofs.Lists

/-!
# What a store has gained

A store that takes every write, and whose clock does not go back, has after some writes what it had before
and the new rows. Read out, the new rows come in the order in which they were written, and the old ones as if
nothing had been added.
-/
namespace Intake.Store

/-- A store has become another by taking rows. -/
structure Gained (s₀ : Store) (rows : List EventRow) (xs : List SightingRow) (s : Store) : Prop where
  writable : s.IsWritable
  query : s.disturbances.query = s₀.disturbances.query
  events : s.events = s₀.events ++ rows
  sightings : s.sightings = s₀.sightings ++ xs
  /-- The new rows alone would make a chronological store. -/
  own : Chronological { s with events := rows }

theorem gained_nil {s : Store} (hw : s.IsWritable) (hc : ∀ n, s.clock n ≤ s.clock (n + 1)) :
    Gained s [] [] s :=
  ⟨hw, rfl, (List.append_nil _).symm, (List.append_nil _).symm, .nil, nofun, hc⟩

theorem IsWritable.inserted {s t : Store} (h : s.IsWritable)
    (ht : t.disturbances = Store.inserted s.disturbances) : t.IsWritable := by
  constructor
  · rw [ht, Store.inserted, h.commit_never]
    rfl
  · rw [ht, Store.inserted, h.insert_never]
    rfl

namespace Gained

variable {s₀ s s' : Store} {rows : List EventRow} {xs : List SightingRow}

theorem insertEvent (h : Gained s₀ rows xs s) {e : Event} (he : e.IsFresh)
    (hr : (insertEvent e).run s = (.ok (), s')) :
    ∃ r, r.written = e ∧ Gained s₀ (rows ++ [r]) xs s' := by
  obtain ⟨r, hw, hid, ht, rfl⟩ := insertEvent_fresh_ok he hr
  have hlt : ∀ q ∈ rows, q.id < r.id := by
    intro q hq
    rw [hid]
    apply lt_nextId
    rw [h.events]
    exact List.mem_map_of_mem (List.mem_append_right _ hq)
  refine ⟨r, hw, h.writable.inserted rfl, h.query, ?_, h.sightings, h.own.snoc rfl rfl ht hlt⟩
  rw [h.events, List.append_assoc]

theorem insertSighting (h : Gained s₀ rows xs s) {x : Sighting}
    (hr : (insertSighting x).run s = (.ok (), s')) :
    ∃ row, row.Records (s.clock 0) x ∧ Gained s₀ rows (xs ++ [row]) s' := by
  obtain ⟨row, hrow, rfl⟩ := insertSighting_ok hr
  refine ⟨row, (records_of_sightingRowOf hrow).2, h.writable.inserted rfl, h.query, h.events, ?_,
    h.own.tick rfl rfl⟩
  rw [h.sightings, List.append_assoc]

end Gained

theorem filter_eventsIn (s : Store) (scope : Scope) (q : Event → Bool) :
    (s.eventsIn scope).filter q =
      eventsIn { s with events := s.events.filter fun r => q r.toEvent } scope := by
  have htrans (a b c : EventRow) := placedBefore_trans (a.time, a.id) (b.time, b.id) (c.time, c.id)
  have htotal (a b : EventRow) := placedBefore_total (a.time, a.id) (b.time, b.id)
  rw [eventsIn, List.filter_map, Sorting.filter_mergeSort htrans htotal, Lists.filter_comm]
  rfl

theorem filter_sightingsIn (s : Store) (scope : Scope) (q : Sighting → Bool) :
    (s.sightingsIn scope).filter q =
      sightingsIn { s with sightings := s.sightings.filter fun r => q r.toSighting } scope := by
  have htrans (a b c : SightingRow) := placedBefore_trans (a.time, a.id) (b.time, b.id) (c.time, c.id)
  have htotal (a b : SightingRow) := placedBefore_total (a.time, a.id) (b.time, b.id)
  rw [sightingsIn, List.filter_map, Sorting.filter_mergeSort htrans htotal, Lists.filter_comm]
  rfl

/-- Nothing in the tables is about a blob. -/
structure Lacks (s : Store) (b : String) : Prop where
  events : ∀ r ∈ s.events, r.blobId ≠ b
  sightings : ∀ x ∈ s.sightings, x.blobId ≠ b

/-- What a store has gained is about one blob in one ingestion, of which it had nothing. -/
structure GainedOf (b i : String) (s₀ : Store) (rows : List EventRow) (xs : List SightingRow) (s : Store) :
    Prop extends Gained s₀ rows xs s where
  lacks : s₀.Lacks b
  rows_own : ∀ r ∈ rows, r.blobId = b ∧ r.ingestId = i
  seen_own : ∀ x ∈ xs, x.blobId = b ∧ x.ingestId = i

namespace GainedOf

variable {b i : String} {s₀ s : Store} {rows : List EventRow} {xs : List SightingRow} {scope : Scope}

theorem filter_eventsIn_own (h : GainedOf b i s₀ rows xs s) (hi : inScope scope i = true)
    {q : Event → Bool} (hown : ∀ r : EventRow, r.blobId = b → r.ingestId = i → q r.toEvent = true)
    (hother : ∀ r : EventRow, r.blobId ≠ b → q r.toEvent = false) :
    (s.eventsIn scope).filter q = rows.map EventRow.toEvent := by
  have hrows : (s₀.events ++ rows).filter (fun r => q r.toEvent) = rows := by
    apply Lists.filter_append_right
    · exact fun r hr => hother r (h.lacks.events r hr)
    · exact fun r hr => hown r (h.rows_own r hr).1 (h.rows_own r hr).2
  have hscope : rows.filter (fun r => inScope scope r.ingestId) = rows := by
    rw [List.filter_eq_self]
    intro r hr
    rw [(h.rows_own r hr).2, hi]
  rw [filter_eventsIn, h.events, hrows, h.own.eventsIn, hscope]

/-- Of the blob the store gives out what it has gained. -/
theorem eventsIn_own (h : GainedOf b i s₀ rows xs s) (hi : inScope scope i = true) :
    ((s.eventsIn scope).filter fun e => e.key == (some b, some i)) = rows.map EventRow.toEvent := by
  apply h.filter_eventsIn_own hi
  · rintro r rfl rfl
    exact beq_self_eq_true _
  · intro r hr
    simp [Event.key, EventRow.toEvent, hr]

/-- Of other blobs the store gives out what it had. -/
theorem eventsIn_other (h : GainedOf b i s₀ rows xs s) (scope : Scope) :
    ((s.eventsIn scope).filter fun e => e.blobId != some b) = s₀.eventsIn scope := by
  have hrows : (s₀.events ++ rows).filter (fun r => r.toEvent.blobId != some b) = s₀.events := by
    apply Lists.filter_append_left
    · intro r hr
      simpa [EventRow.toEvent] using h.lacks.events r hr
    · intro r hr
      simp [EventRow.toEvent, (h.rows_own r hr).1]
  rw [filter_eventsIn, h.events, hrows]
  rfl

theorem sightingsIn_own (h : GainedOf b i s₀ rows xs s) (hi : inScope scope i = true) :
    ((s.sightingsIn scope).filter fun x => x.key == (some b, some i)).Perm (xs.map SightingRow.toSighting) := by
  have hxs : (s₀.sightings ++ xs).filter (fun x => x.toSighting.key == (some b, some i)) = xs := by
    apply Lists.filter_append_right
    · intro x hx
      simp [Sighting.key, SightingRow.toSighting, h.lacks.sightings x hx]
    · intro x hx
      simp [Sighting.key, SightingRow.toSighting, h.seen_own x hx]
  have hscope : xs.filter (fun x => inScope scope x.ingestId) = xs := by
    rw [List.filter_eq_self]
    intro x hx
    rw [(h.seen_own x hx).2, hi]
  rw [filter_sightingsIn, h.sightings, hxs, sightingsIn, hscope]
  exact (List.mergeSort_perm _ _).map _

theorem sightingsIn_other (h : GainedOf b i s₀ rows xs s) (scope : Scope) :
    ((s.sightingsIn scope).filter fun x => x.blobId != some b) = s₀.sightingsIn scope := by
  have hxs : (s₀.sightings ++ xs).filter (fun x => x.toSighting.blobId != some b) = s₀.sightings := by
    apply Lists.filter_append_left
    · intro x hx
      simpa [SightingRow.toSighting] using h.lacks.sightings x hx
    · intro x hx
      simp [SightingRow.toSighting, (h.seen_own x hx).1]
  rw [filter_sightingsIn, h.sightings, hxs]
  rfl

theorem isStuck_eq (h : GainedOf b i s₀ rows xs s) (hi : inScope scope i = true) (threshold : Int) :
    Status.isStuck (s.eventsIn scope) threshold (some b) = decide (threshold < (rows.length : Int)) := by
  have hf : ((s.eventsIn scope).filter fun e => e.blobId == some b) = rows.map EventRow.toEvent := by
    apply h.filter_eventsIn_own hi
    · rintro r rfl -
      exact beq_self_eq_true _
    · intro r hr
      simpa [EventRow.toEvent] using hr
  rw [Status.isStuck, List.countP_eq_length_filter, hf, List.length_map]
  rfl

end GainedOf
end Intake.Store
