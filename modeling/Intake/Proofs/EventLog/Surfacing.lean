import Intake.Proofs.Dispatch.Course
import Intake.Proofs.EventLog.Atomicity

/-!
# How a failed write shows

A write of an event adds its row, or it ends with a fault of writing. So does a write of a sighting, but for
one case: a size that the database has no room for ends it with a fault that does not belong to the log. All
text here is Unicode text. Text with half of a surrogate pair, which a driver cannot encode either, is no
`String`, and nothing is said of it.
-/
namespace Intake
namespace Store

variable {s : Store}

def AddsEvent (s : Store) (e : Event) (s' : Store) : Prop :=
  ∃ r : EventRow, r.Records (s.clock 0) e ∧ s'.tables = (s.events ++ [r], s.sightings)

def AddsSighting (s : Store) (x : Sighting) (s' : Store) : Prop :=
  ∃ r : SightingRow, r.Records (s.clock 0) x ∧ s'.tables = (s.events, s.sightings ++ [r])

/-- What a log promises of a write: it adds its row, or it ends with a fault of writing and the tables are
as they were. -/
inductive Surfaces (s : Store) (Adds : Store → Prop) : Except Fault Unit × Store → Prop
  | added {s' : Store} (h : Adds s') : Surfaces s Adds (.ok (), s')
  | refused {f : Fault} {s' : Store} (hk : f.kind = .storageWrite) (ht : s'.tables = s.tables) :
      Surfaces s Adds (.error f, s')

/-- The database lets the commit of a sighting through, and has no room for its size. -/
def overflows (s : Store) (x : Sighting) : Bool :=
  (s.disturbances.commit 0).isNone && x.size.any fun n => !sizeInRange n

theorem bind_required_error {α β : Type} {missing f : Fault} {a : Option α} {k : α → Except Fault β}
    (h : (required missing a >>= k) = .error f) : f = missing ∨ ∃ b, k b = .error f := by
  cases a with
  | none => exact .inl (Except.error.inj h).symm
  | some a => exact .inr ⟨a, h⟩

theorem rowOf_error {id : Nat} {now : WallTime} {e : Event} {ms : Members} {f : Fault}
    (h : rowOf id now e ms = .error f) :
    f = .eventNotWritten (Value.textOrNone e.blobId) .missingField := by
  obtain h | ⟨b, h⟩ := bind_required_error h
  · exact h
  · obtain h | ⟨i, h⟩ := bind_required_error h
    · exact h
    · cases h

theorem sightingRowOf_error {id : Nat} {now : WallTime} {x : Sighting} {f : Fault}
    (h : sightingRowOf id now x = .error f) :
    f = .sightingNotWritten (Value.textOrNone x.blobId) .missingField ∨
      f = .sizeOutOfRange ∧ (x.size.any fun n => !sizeInRange n) = true := by
  rw [sightingRowOf] at h
  split at h
  · rename_i hn
    exact .inr ⟨(Except.error.inj h).symm, hn⟩
  · obtain h | ⟨i, h⟩ := bind_required_error h
    · exact .inl h
    · obtain h | ⟨b, h⟩ := bind_required_error h
      · exact .inl h
      · obtain h | ⟨n, h⟩ := bind_required_error h
        · exact .inl h
        · obtain h | ⟨path, h⟩ := bind_required_error h
          · exact .inl h
          · cases h

theorem surfaces_insertEvent (e : Event) (ms : Members) (s : Store) (h : e.details = .object ms) :
    s.Surfaces (s.AddsEvent e) ((insertEvent e).run s) := by
  cases hr : (insertEvent e).run s with
  | mk r s' =>
    cases r with
    | ok u =>
      obtain ⟨ms', row, hm, hrow, rfl⟩ := insertEvent_ok hr
      exact .added ⟨row, (records_of_rowOf hm hrow).2, rfl⟩
    | error f =>
      obtain ⟨⟨d, rfl, -⟩, hm | ⟨ms', -, hrow⟩ | ⟨words, rfl⟩⟩ := insertEvent_error hr
      · rw [h] at hm
        cases hm
      · rw [rowOf_error hrow]
        exact .refused rfl rfl
      · exact .refused rfl rfl

theorem run_insertSighting_of_refused {x : Sighting} {words : String}
    (h : s.disturbances.commit 0 = some words) :
    ((insertSighting x).run s).1 =
      .error (.sightingNotWritten (Value.textOrNone x.blobId) (.database words)) := by
  simp only [insertSighting, commit, Action.run_bind, run_actOn, h]

theorem surfaces_insertSighting {x : Sighting} (h : s.overflows x = false) :
    s.Surfaces (s.AddsSighting x) ((insertSighting x).run s) := by
  cases hr : (insertSighting x).run s with
  | mk r s' =>
    cases r with
    | ok u =>
      obtain ⟨row, hrow, rfl⟩ := insertSighting_ok hr
      exact .added ⟨row, (records_of_sightingRowOf hrow).2, rfl⟩
    | error f =>
      obtain ⟨⟨d, rfl⟩, hrow | ⟨words, rfl⟩⟩ := insertSighting_error hr
      · obtain rfl | ⟨rfl, hn⟩ := sightingRowOf_error hrow
        · exact .refused rfl rfl
        · -- The size is too large, so it is the commit that is refused, and that comes first.
          rw [overflows, hn, Bool.and_true, Option.isNone_eq_false_iff, Option.isSome_iff_exists] at h
          obtain ⟨words, hc⟩ := h
          have hf := congrArg Prod.fst hr
          rw [run_insertSighting_of_refused hc] at hf
          cases hf
      · exact .refused rfl rfl

theorem run_insertSighting_of_overflow {x : Sighting} (h : s.overflows x = true) :
    ∃ s', (insertSighting x).run s = (.error .sizeOutOfRange, s') ∧ s'.tables = s.tables := by
  rw [overflows, Bool.and_eq_true, Option.isNone_iff_eq_none] at h
  obtain ⟨hc, hn⟩ := h
  simp only [insertSighting, commit, Action.run_bind, run_actOn, hc, Action.run_get, Action.run_ofExcept,
    sightingRowOf, hn]
  exact ⟨_, rfl, rfl⟩

/-- How every write of a store ends, and every handling of a task up to its dispatch, whatever the database
refuses. An event with an object of details adds one row or ends with a fault of writing. So does a sighting,
unless its size meets no refusal and no room: then nothing is written, and the fault is not one of writing. This
is the only such case for ids and paths that are Unicode text. -/
theorem writes_surface (s : Store) (e : Event) (ms : Members) (x : Sighting) (registry : Registry) (t : Task)
    (w : Outside) :
    s.Surfaces (s.AddsEvent { e with details := .object ms })
        ((insertEvent { e with details := .object ms }).run s) ∧
      (if s.overflows x then
        ∃ s', (insertSighting x).run s = (.error .sizeOutOfRange, s') ∧ s'.tables = s.tables
      else s.Surfaces (s.AddsSighting x) ((insertSighting x).run s)) ∧
      if s.overflows t.sighting then
        ∃ s', (handle log registry t).run (s, w) = (.error .sizeOutOfRange, s', w) ∧ s'.tables = s.tables
      else
        (∃ s₁, s.AddsSighting t.sighting s₁ ∧ (handle log registry t).run (s, w) =
            (dispatch log registry t.blob t.file t.params).run (s₁, w)) ∨
          ∃ f s', (handle log registry t).run (s, w) = (.error f, s', w) ∧ f.kind = .storageWrite ∧
            s'.tables = s.tables := by
  refine ⟨surfaces_insertEvent _ ms s rfl, ?_, ?_⟩
  · split
    · rename_i h
      exact run_insertSighting_of_overflow h
    · rename_i h
      exact surfaces_insertSighting (Bool.not_eq_true _ ▸ h)
  · rw [Dispatch.run_handle, log]
    split
    · rename_i h
      obtain ⟨s', hr, ht⟩ := run_insertSighting_of_overflow h
      rw [hr]
      exact ⟨s', rfl, ht⟩
    · rename_i h
      have hs := surfaces_insertSighting (Bool.not_eq_true _ ▸ h)
      generalize (insertSighting t.sighting).run s = res at hs
      cases hs with
      | added ha => exact .inl ⟨_, ha, rfl⟩
      | refused hk ht => exact .inr ⟨_, _, rfl, hk, ht⟩

/-- A blob of 2^63 bytes makes a task like any other, and handling it ends with a fault that is not one of
writing. -/
theorem not_surfaces_of_large :
    let s := Store.empty (.still 0)
    let t : Task :=
      ⟨⟨"b", "text/plain", 0x8000000000000000, by decide⟩, .ofString "/f", "/f", ⟨"i", [], none, none⟩⟩
    ¬s.Surfaces (s.AddsSighting t.sighting) ((insertSighting t.sighting).run s) ∧
      ((handle log .empty t).run (s, .calm)).1 = .error .sizeOutOfRange ∧
      Fault.sizeOutOfRange.kind ≠ .storageWrite := by
  intro s t
  have ho : s.overflows t.sighting = true := by decide
  obtain ⟨s', hr, -⟩ := run_insertSighting_of_overflow ho
  refine ⟨?_, ?_, by decide⟩
  · intro h
    rw [hr] at h
    cases h with
    | refused hk _ => cases hk
  · rw [Dispatch.run_handle, log, hr]

end Store
end Intake
