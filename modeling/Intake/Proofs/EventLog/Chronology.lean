import Intake.Proofs.EventLog.Reading
import Intake.Proofs.EventLog.Writes

/-!
# Stores whose clock does not go back

Events come out of such a store in the order in which they went in.
-/
namespace Intake.Store

/-- Later events have later moments and larger numbers, and the clock does not go back. -/
structure Chronological (s : Store) : Prop where
  rows : s.events.Pairwise fun r t => r.time ≤ t.time ∧ r.id < t.id
  past : ∀ r ∈ s.events, r.time ≤ s.clock 0
  clock : ∀ n, s.clock n ≤ s.clock (n + 1)

theorem chronological_empty {clock : Clock} (h : ∀ n, clock n ≤ clock (n + 1)) :
    (empty clock).Chronological :=
  ⟨.nil, nofun, h⟩

theorem Chronological.snoc {s t : Store} (h : s.Chronological) {r : EventRow}
    (he : t.events = s.events ++ [r]) (hc : t.clock = s.clock.rest) (ht : r.time = s.clock 0)
    (hid : ∀ q ∈ s.events, q.id < r.id) : t.Chronological := by
  have hnow : s.clock 0 ≤ s.clock 1 := h.clock 0
  constructor
  · rw [he, List.pairwise_append]
    refine ⟨h.rows, List.pairwise_singleton .., ?_⟩
    intro q hq r' hr'
    rw [List.mem_singleton.mp hr', ht]
    exact ⟨h.past q hq, hid q hq⟩
  · intro q hq
    rw [hc]
    rw [he] at hq
    rcases List.mem_append.mp hq with hq | hq
    · exact Nat.le_trans (h.past q hq) hnow
    · rw [List.mem_singleton.mp hq, ht]
      exact hnow
  · rw [hc]
    exact fun n => h.clock (n + 1)

theorem Chronological.tick {s t : Store} (h : s.Chronological) (he : t.events = s.events)
    (hc : t.clock = s.clock.rest) : t.Chronological := by
  constructor
  · rw [he]
    exact h.rows
  · intro q hq
    rw [he] at hq
    rw [hc]
    exact Nat.le_trans (h.past q hq) (h.clock 0)
  · rw [hc]
    exact fun n => h.clock (n + 1)

theorem Chronological.insertEvent {s s' : Store} (h : s.Chronological) {e : Event} (he : e.IsFresh)
    (hr : (insertEvent e).run s = (.ok (), s')) : s'.Chronological := by
  obtain ⟨r, -, hi, ht, rfl⟩ := insertEvent_fresh_ok he hr
  apply h.snoc rfl rfl ht
  intro q hq
  rw [hi]
  exact lt_nextId (List.mem_map_of_mem hq)

theorem Chronological.eventsIn {s : Store} (h : s.Chronological) (scope : Scope) :
    s.eventsIn scope = (s.events.filter fun r => inScope scope r.ingestId).map EventRow.toEvent := by
  rw [Store.eventsIn, List.mergeSort_of_pairwise]
  apply (h.rows.filter _).imp
  rintro r t ⟨ht, hi⟩
  rw [placedBefore, decide_eq_true_eq]
  exact (Nat.lt_or_eq_of_le ht).imp_right fun h => ⟨h, Nat.le_of_lt hi⟩

end Intake.Store
