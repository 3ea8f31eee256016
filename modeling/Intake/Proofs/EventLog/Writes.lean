import Intake.EventLog.Store

/-!
# What a write does to the store

A write that succeeds adds one row, with the next number and the next reading of the clock. One that
fails leaves the tables and the clock as they were.
-/
namespace Intake

/-- The event that a row tells of, without the moment and the number it got in the store. -/
def EventRow.written (r : EventRow) : Event := { r.toEvent with time := none, id := none }

/-- An event that lacks nothing the store cannot give it, and has nothing that the store gives. -/
structure Event.IsFresh (e : Event) : Prop where
  blob : ∃ b, e.blobId = some b
  ingest : ∃ i, e.ingestId = some i
  details : ∃ ms, e.details = .object ms
  time : e.time = none
  id : e.id = none

namespace Store

theorem run_actOn (get : Disturbances → Disturbance) (put : Disturbances → Disturbance → Disturbances)
    (refuse : String → Fault) (s : Store) :
    (actOn get put refuse).run s =
      (match get s.disturbances 0 with
        | none => .ok ()
        | some words => .error (refuse words),
        { s with disturbances := put s.disturbances (get s.disturbances).rest }) := by
  simp only [actOn, Action.run_bind, Action.run_get, Action.run_set]
  cases get s.disturbances 0 <;> rfl

theorem actOn_ok {get : Disturbances → Disturbance} {put : Disturbances → Disturbance → Disturbances}
    {refuse : String → Fault} {s s' : Store} (h : (actOn get put refuse).run s = (.ok (), s')) :
    get s.disturbances 0 = none ∧
      s' = { s with disturbances := put s.disturbances (get s.disturbances).rest } := by
  rw [run_actOn] at h
  cases hw : get s.disturbances 0 with
  | none => rw [hw] at h; exact ⟨rfl, (Prod.mk.inj h).2.symm⟩
  | some words => rw [hw] at h; cases (Prod.mk.inj h).1

theorem actOn_error {get : Disturbances → Disturbance}
    {put : Disturbances → Disturbance → Disturbances} {refuse : String → Fault} {s s' : Store} {f : Fault}
    (h : (actOn get put refuse).run s = (.error f, s')) :
    ∃ words, f = refuse words ∧
      s' = { s with disturbances := put s.disturbances (get s.disturbances).rest } := by
  rw [run_actOn] at h
  cases hw : get s.disturbances 0 with
  | none => rw [hw] at h; cases (Prod.mk.inj h).1
  | some words =>
    rw [hw] at h
    exact ⟨words, by simpa using (Prod.mk.inj h).1.symm, (Prod.mk.inj h).2.symm⟩

theorem pairwise_append_nextId {ρ : Type} {id : ρ → Nat} {l : List ρ} {r : ρ}
    (h : l.Pairwise fun r t => id r < id t) (hr : id r = nextId (l.map id)) :
    (l ++ [r]).Pairwise fun r t => id r < id t := by
  rw [List.pairwise_append]
  refine ⟨h, List.pairwise_singleton .., ?_⟩
  intro t ht u hu
  rw [List.mem_singleton.mp hu, hr]
  exact lt_nextId (List.mem_map_of_mem ht)

theorem rowOf_eq_ok_iff {id : Nat} {now : WallTime} {e : Event} {ms : Members} {r : EventRow} :
    rowOf id now e ms = .ok r ↔ ∃ b i, e.blobId = some b ∧ e.ingestId = some i ∧
      r = ⟨id, b, i, e.type, e.status, ms, (e.time.map Timestamp.wall).getD now⟩ := by
  cases hb : e.blobId with
  | none => simp [rowOf, hb, required, bind, Except.bind]
  | some b =>
    cases hi : e.ingestId with
    | none => simp [rowOf, hb, hi, required, bind, Except.bind]
    | some i =>
      simp [rowOf, hb, hi, required, bind, Except.bind, pure, Except.pure, eq_comm]

/-- The disturbances that remain after an insertion that nothing disturbed. -/
def inserted (d : Disturbances) : Disturbances := { d with commit := d.commit.rest, insert := d.insert.rest }

theorem insertEvent_ok {e : Event} {s s' : Store} (h : (insertEvent e).run s = (.ok (), s')) :
    ∃ ms r, e.details.toMembers = .ok ms ∧
      rowOf (nextId (s.events.map EventRow.id)) (s.clock 0) e ms = .ok r ∧
      s' = { s with
        events := s.events ++ [r], clock := s.clock.rest, disturbances := inserted s.disturbances } := by
  simp only [insertEvent, Action.run_bind_eq_ok_iff, Action.run_ofExcept, Prod.mk.injEq] at h
  obtain ⟨ms, s₁, ⟨hm, rfl⟩, _, s₂, hc, _, _, hg, r, s₃, ⟨hr, rfl⟩, _, s₄, hi, hs⟩ := h
  obtain ⟨-, rfl⟩ := actOn_ok hc
  cases hg
  obtain ⟨-, rfl⟩ := actOn_ok hi
  cases hs
  exact ⟨ms, r, hm, hr, rfl⟩

theorem insertEvent_error {e : Event} {s s' : Store} {f : Fault}
    (h : (insertEvent e).run s = (.error f, s')) :
    (∃ d : Disturbances, s' = { s with disturbances := d } ∧ d.query = s.disturbances.query) ∧
      (e.details.toMembers = .error f ∨
        (∃ ms, e.details.toMembers = .ok ms ∧
          rowOf (nextId (s.events.map EventRow.id)) (s.clock 0) e ms = .error f) ∨
        ∃ words, f = .eventNotWritten (Value.textOrNone e.blobId) (.database words)) := by
  simp only [insertEvent, Action.run_bind_eq_error_iff, Action.run_ofExcept, Prod.mk.injEq] at h
  obtain ⟨hm, rfl⟩ | ⟨ms, s₁, ⟨hm, rfl⟩, hc | ⟨_, s₂, hc, hg | ⟨_, _, hg, h⟩⟩⟩ := h
  · exact ⟨⟨_, rfl, rfl⟩, .inl hm⟩
  · obtain ⟨words, rfl, rfl⟩ := actOn_error hc
    exact ⟨⟨_, rfl, rfl⟩, .inr (.inr ⟨words, rfl⟩)⟩
  · cases hg
  · cases hg
    obtain ⟨-, rfl⟩ := actOn_ok hc
    obtain ⟨hr, rfl⟩ | ⟨r, s₃, ⟨-, rfl⟩, hi | ⟨_, s₄, -, hs⟩⟩ := h
    · exact ⟨⟨_, rfl, rfl⟩, .inr (.inl ⟨ms, hm, hr⟩)⟩
    · obtain ⟨words, rfl, rfl⟩ := actOn_error hi
      exact ⟨⟨_, rfl, rfl⟩, .inr (.inr ⟨words, rfl⟩)⟩
    · cases hs

theorem sightingRowOf_eq_ok_iff {id : Nat} {now : WallTime} {x : Sighting} {r : SightingRow} :
    sightingRowOf id now x = .ok r ↔ ∃ b i n path, x.blobId = some b ∧ x.ingestId = some i ∧
      x.size = some n ∧ x.path = some path ∧ sizeInRange n = true ∧
      r = ⟨id, b, i, n, path, (x.time.map Timestamp.wall).getD now⟩ := by
  obtain ⟨i, b, n, path, t⟩ := x
  cases n with
  | none => cases i <;> cases b <;> simp [sightingRowOf, required, bind, Except.bind]
  | some n =>
    cases hn : sizeInRange n with
    | false => simp [sightingRowOf, hn, bind, Except.bind]
    | true =>
      cases i <;> cases b <;> cases path <;>
        simp [sightingRowOf, hn, required, bind, Except.bind, pure, Except.pure, eq_comm (a := r)]

theorem insertSighting_ok {x : Sighting} {s s' : Store} (h : (insertSighting x).run s = (.ok (), s')) :
    ∃ r, sightingRowOf (nextId (s.sightings.map SightingRow.id)) (s.clock 0) x = .ok r ∧
      s' = { s with
        sightings := s.sightings ++ [r], clock := s.clock.rest, disturbances := inserted s.disturbances } := by
  simp only [insertSighting, Action.run_bind_eq_ok_iff, Action.run_ofExcept, Prod.mk.injEq] at h
  obtain ⟨_, s₂, hc, _, _, hg, r, s₃, ⟨hr, rfl⟩, _, s₄, hi, hs⟩ := h
  obtain ⟨-, rfl⟩ := actOn_ok hc
  cases hg
  obtain ⟨-, rfl⟩ := actOn_ok hi
  cases hs
  exact ⟨r, hr, rfl⟩

theorem insertSighting_error {x : Sighting} {s s' : Store} {f : Fault}
    (h : (insertSighting x).run s = (.error f, s')) :
    (∃ d : Disturbances, s' = { s with disturbances := d }) ∧
      (sightingRowOf (nextId (s.sightings.map SightingRow.id)) (s.clock 0) x = .error f ∨
        ∃ words, f = .sightingNotWritten (Value.textOrNone x.blobId) (.database words)) := by
  simp only [insertSighting, Action.run_bind_eq_error_iff, Action.run_ofExcept, Prod.mk.injEq] at h
  obtain hc | ⟨_, s₂, hc, hg | ⟨_, _, hg, h⟩⟩ := h
  · obtain ⟨words, rfl, rfl⟩ := actOn_error hc
    exact ⟨⟨_, rfl⟩, .inr ⟨words, rfl⟩⟩
  · cases hg
  · cases hg
    obtain ⟨-, rfl⟩ := actOn_ok hc
    obtain ⟨hr, rfl⟩ | ⟨r, s₃, ⟨-, rfl⟩, hi | ⟨_, s₄, -, hs⟩⟩ := h
    · exact ⟨⟨_, rfl⟩, .inl hr⟩
    · obtain ⟨words, rfl, rfl⟩ := actOn_error hi
      exact ⟨⟨_, rfl⟩, .inr ⟨words, rfl⟩⟩
    · cases hs

theorem run_transaction {α : Type} (statements : Action Store α) (s : Store) :
    (transaction statements).run s = match statements.run s with
      | (.ok a, t) => (.ok a, t)
      | (.error f, t) => (.error f, { t with events := s.events, sightings := s.sightings }) := rfl

theorem transaction_ok {α : Type} {statements : Action Store α} {s s' : Store} {a : α}
    (h : (transaction statements).run s = (.ok a, s')) : statements.run s = (.ok a, s') := by
  rw [run_transaction] at h
  cases hr : statements.run s with
  | mk r t =>
    rw [hr] at h
    cases r with
    | ok b => exact h
    | error f => cases (Prod.mk.inj h).1

/-- A transaction that fails is rolled back. -/
theorem transaction_error {α : Type} {statements : Action Store α} {s s' : Store} {f : Fault}
    (h : (transaction statements).run s = (.error f, s')) :
    ∃ t, statements.run s = (.error f, t) ∧
      s' = { t with events := s.events, sightings := s.sightings } := by
  rw [run_transaction] at h
  cases hr : statements.run s with
  | mk r t =>
    rw [hr] at h
    cases r with
    | ok b => cases (Prod.mk.inj h).1
    | error g =>
      cases h
      exact ⟨t, rfl, rfl⟩

section

variable {ρ : Type} {table : Store → List ρ} {put : Store → List ρ → Store} {blobOf : ρ → String}
  {refuse : String → Fault} {b : String} {s s' : Store}

theorem deleteFrom_ok {n : Nat} (h : (deleteFrom table put blobOf refuse b).run s = (.ok n, s')) :
    ∃ t, (∃ d : Disturbances, t = { s with disturbances := d }) ∧
      n = (table t).countP (fun r => blobOf r == b) ∧
      s' = put t ((table t).filter fun r => blobOf r != b) := by
  simp only [deleteFrom, Action.run_bind_eq_ok_iff] at h
  obtain ⟨_, t, hd, _, _, hg, _, _, hs, hp⟩ := h
  obtain ⟨-, rfl⟩ := actOn_ok hd
  cases hg
  cases hs
  cases hp
  exact ⟨_, ⟨_, rfl⟩, rfl, rfl⟩

theorem deleteFrom_error {f : Fault} (h : (deleteFrom table put blobOf refuse b).run s = (.error f, s')) :
    ∃ words, f = refuse words ∧ ∃ d : Disturbances, s' = { s with disturbances := d } := by
  simp only [deleteFrom, Action.run_bind_eq_error_iff] at h
  obtain hd | ⟨_, t, hd, hg | ⟨_, _, hg, hs | ⟨_, _, _, hp⟩⟩⟩ := h
  · obtain ⟨words, hf, hs⟩ := actOn_error hd
    exact ⟨words, hf, _, hs⟩
  · cases hg
  · cases hs
  · cases hp

end

/-- The tables without the rows of a blob. -/
def without (s : Store) (blobId : String) : Store :=
  { s with
    events := s.events.filter fun r => r.blobId != blobId
    sightings := s.sightings.filter fun r => r.blobId != blobId }

/-- The number of rows of a blob in both tables. -/
def countOf (s : Store) (blobId : String) : Nat :=
  (s.events.countP fun r => r.blobId == blobId) + s.sightings.countP fun r => r.blobId == blobId

/-- A purge takes the rows of its blob out of both tables, or it is refused and takes none. -/
theorem purge_cases (b : String) (s : Store) :
    ∃ d : Disturbances, (purge b).run s = (.ok (s.countOf b), { s.without b with disturbances := d }) ∨
      ∃ words, (purge b).run s = (.error (.blobNotPurged b (.database words)), { s with disturbances := d }) := by
  cases hr : (purge b).run s with
  | mk r s' =>
    cases r with
    | ok n =>
      obtain ⟨n₁, s₁, h₁, h⟩ := Action.run_bind_eq_ok_iff.mp (transaction_ok hr)
      obtain ⟨n₂, s₂, h₂, h⟩ := Action.run_bind_eq_ok_iff.mp h
      obtain ⟨_, s₃, h₃, h⟩ := Action.run_bind_eq_ok_iff.mp h
      obtain ⟨_, ⟨d₁, rfl⟩, rfl, rfl⟩ := deleteFrom_ok h₁
      obtain ⟨_, ⟨d₂, rfl⟩, rfl, rfl⟩ := deleteFrom_ok h₂
      obtain ⟨-, rfl⟩ := actOn_ok h₃
      cases h
      exact ⟨_, .inl rfl⟩
    | error f =>
      obtain ⟨t, ht, rfl⟩ := transaction_error hr
      simp only [Action.run_bind_eq_error_iff] at ht
      obtain h₁ | ⟨n₁, s₁, h₁, h₂ | ⟨n₂, s₂, h₂, h₃ | ⟨_, s₃, _, hp⟩⟩⟩ := ht
      · obtain ⟨words, rfl, d₁, rfl⟩ := deleteFrom_error h₁
        exact ⟨_, .inr ⟨words, rfl⟩⟩
      · -- The events are gone from the table by now, and the rollback brings them back.
        obtain ⟨_, ⟨d₁, rfl⟩, -, rfl⟩ := deleteFrom_ok h₁
        obtain ⟨words, rfl, d₂, rfl⟩ := deleteFrom_error h₂
        exact ⟨_, .inr ⟨words, rfl⟩⟩
      · obtain ⟨_, ⟨d₁, rfl⟩, -, rfl⟩ := deleteFrom_ok h₁
        obtain ⟨_, ⟨d₂, rfl⟩, -, rfl⟩ := deleteFrom_ok h₂
        obtain ⟨words, rfl, rfl⟩ := actOn_error h₃
        exact ⟨_, .inr ⟨words, rfl⟩⟩
      · cases hp

theorem run_purge {s : Store} (h : s.disturbances = .none) (b : String) :
    (purge b).run s = (.ok (s.countOf b), s.without b) := by
  obtain ⟨es, rs, c, d⟩ := s
  cases h
  rfl

/-- The database refuses no write to come. -/
structure IsWritable (s : Store) : Prop where
  commit_never : s.disturbances.commit = .never
  insert_never : s.disturbances.insert = .never

theorem isWritable_of_undisturbed {s : Store} (h : s.disturbances = .none) : s.IsWritable := by
  constructor <;> rw [h] <;> rfl

theorem IsWritable.run_commit {s : Store} (h : s.IsWritable) (refuse : String → Fault) :
    (commit refuse).run s = (.ok (), s) := by
  rw [commit, run_actOn, h.commit_never]
  obtain ⟨es, rs, c, ⟨i, d, m, q⟩⟩ := s
  cases h.commit_never
  rfl

theorem IsWritable.run_insertion {s : Store} (h : s.IsWritable) (refuse : String → Fault) :
    (insertion refuse).run s = (.ok (), s) := by
  rw [insertion, run_actOn, h.insert_never]
  obtain ⟨es, rs, c, ⟨i, d, m, q⟩⟩ := s
  cases h.insert_never
  rfl

theorem IsWritable.run_insertEvent {s : Store} (h : s.IsWritable) {e : Event} {ms : Members} {r : EventRow}
    (hm : e.details.toMembers = .ok ms)
    (hr : rowOf (nextId (s.events.map EventRow.id)) (s.clock 0) e ms = .ok r) :
    (insertEvent e).run s = (.ok (), { s with events := s.events ++ [r], clock := s.clock.rest }) := by
  simp only [insertEvent, Action.run_bind, Action.run_ofExcept, hm, h.run_commit, Action.run_get, hr,
    h.run_insertion, Action.run_modify]

theorem IsWritable.run_insertSighting {s : Store} (h : s.IsWritable) {x : Sighting} {r : SightingRow}
    (hr : sightingRowOf (nextId (s.sightings.map SightingRow.id)) (s.clock 0) x = .ok r) :
    (insertSighting x).run s =
      (.ok (), { s with sightings := s.sightings ++ [r], clock := s.clock.rest }) := by
  simp only [insertSighting, Action.run_bind, Action.run_ofExcept, h.run_commit, Action.run_get, hr,
    h.run_insertion, Action.run_modify]

theorem rowOf_fresh {e : Event} (he : e.IsFresh) (id : Nat) (now : WallTime) :
    ∃ ms r, e.details.toMembers = .ok ms ∧ rowOf id now e ms = .ok r ∧ r.written = e ∧ r.id = id ∧
      r.time = now := by
  obtain ⟨b, i, type, status, d, t, n⟩ := e
  obtain ⟨⟨b, rfl⟩, ⟨i, rfl⟩, ⟨ms, rfl⟩, rfl, rfl⟩ := he
  exact ⟨ms, _, rfl, rowOf_eq_ok_iff.mpr ⟨b, i, rfl, rfl, rfl⟩, rfl, rfl, rfl⟩

/-- A fresh event is stored as it is, with the next number and the moment that the clock shows. -/
theorem insertEvent_fresh_ok {e : Event} (he : e.IsFresh) {s s' : Store}
    (h : (insertEvent e).run s = (.ok (), s')) :
    ∃ r, r.written = e ∧ r.id = nextId (s.events.map EventRow.id) ∧ r.time = s.clock 0 ∧
      s' = { s with
        events := s.events ++ [r], clock := s.clock.rest, disturbances := inserted s.disturbances } := by
  obtain ⟨ms, r, hm, hr, hs⟩ := insertEvent_ok h
  obtain ⟨ms', r', hm', hr', hw, hi, ht⟩ := rowOf_fresh he (nextId (s.events.map EventRow.id)) (s.clock 0)
  obtain rfl : ms = ms' := Except.ok.inj (hm.symm.trans hm')
  obtain rfl : r = r' := Except.ok.inj (hr.symm.trans hr')
  exact ⟨r, hw, hi, ht, hs⟩

theorem insertEvent_fresh_error {e : Event} (he : e.IsFresh) {s s' : Store} {f : Fault}
    (h : (insertEvent e).run s = (.error f, s')) :
    ∃ words, f = .eventNotWritten (Value.textOrNone e.blobId) (.database words) := by
  obtain ⟨ms, r, hm, hr, -⟩ := rowOf_fresh he (nextId (s.events.map EventRow.id)) (s.clock 0)
  obtain ⟨-, hm' | ⟨ms', hm', hr'⟩ | hw⟩ := insertEvent_error h
  · cases hm.symm.trans hm'
  · cases hm.symm.trans hm'
    cases hr.symm.trans hr'
  · exact hw

theorem IsWritable.insertEvent_fresh {s : Store} (h : s.IsWritable) {e : Event} (he : e.IsFresh) :
    ∃ s', (insertEvent e).run s = (.ok (), s') ∧ s'.IsWritable := by
  obtain ⟨ms, r, hm, hr, -⟩ := rowOf_fresh he (nextId (s.events.map EventRow.id)) (s.clock 0)
  exact ⟨_, h.run_insertEvent hm hr, ⟨h.commit_never, h.insert_never⟩⟩

end Store
end Intake
