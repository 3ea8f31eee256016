import Intake.Proofs.Dispatch.Solo

/-!
# Dispatching without a log

A log that takes every write has no say in what a dispatch does. So the dispatch does the same if nothing is
logged at all.
-/
namespace Intake
namespace Dispatch

variable {σ τ : Type} {log : EventLog σ} {b : Blob} {path : FilePath} {p : Params}

/-- From a state, a dispatch takes a course on which the log refuses nothing. -/
def Unrefused (log : EventLog σ) (registry : Registry) (b : Blob) (path : FilePath) (p : Params)
    (st : σ × Outside) : Prop :=
  ∃ ds r st', Course b p (registry.candidates b.mimeType b.size) ds r ∧
    Performed log b path p ds st st' ∧ ds.filterMap Deed.refused? = []

/-- Deeds that were not refused can be done by the log that keeps nothing, and the outside sees no
difference. -/
theorem Performed.unlogged {ds : List Deed} {st st' : σ × Outside} (h : Performed log b path p ds st st')
    (hd : ds.filterMap Deed.refused? = []) (t : τ) :
    Performed (.nothing τ) b path p ds (t, st.2) (t, st'.2) := by
  induction h with
  | nil st => exact .nil _
  | @cons d ds st st₁ st₂ hdo _ ih =>
    obtain ⟨s, w⟩ := st
    obtain ⟨s₁, w₁⟩ := st₁
    cases d with
    | stored e =>
      have hw : w₁ = w := hdo.2
      exact .cons ⟨rfl, hw⟩ (ih hd)
    | refused e f => cases hd
    | ended x r =>
      have hx : (x.extract b path p).run (w.log (.invoked x.name)) = (r, w₁) := hdo.1
      exact .cons ⟨hx, rfl⟩ (ih hd)

theorem unrefused_of_writable {s : Store} (h : s.IsWritable) (registry : Registry) (b : Blob)
    (path : FilePath) (p : Params) (w : Outside) : Unrefused Store.log registry b path p (s, w) := by
  obtain ⟨ds, hp, hc⟩ := dispatch_course Store.log registry b path p (s, w)
  exact ⟨ds, _, _, hc, hp, hp.refused_nil hc.fresh h⟩

theorem Unrefused.run_nothing {registry : Registry} {st : σ × Outside}
    (h : Unrefused log registry b path p st) (t : τ) :
    (dispatch (.nothing τ) registry b path p).run (t, st.2) =
      (((dispatch log registry b path p).run st).1, t, ((dispatch log registry b path p).run st).2.2) := by
  obtain ⟨ds, r, st', hc, hp, hd⟩ := h
  have hlogged := run_dispatch_of_course hc hp
  have hunlogged := run_dispatch_of_course hc (hp.unlogged hd t)
  rw [hlogged, hunlogged]

end Dispatch

/-- Whether anything is logged does not matter to extraction. If the store takes all that a dispatch, or the
handling of a task, writes, then the one without a log ends with the same report or the same fault, and
leaves the same outside: the same extractors set to work, the same processes, documents, objects, notes and
directories, and the same of everything scripted left over. -/
theorem extraction_unobserved {τ : Type} (u : τ) (registry : Registry) (s : Store) (w : Outside) :
    (∀ b path p, Dispatch.Unrefused Store.log registry b path p (s, w) →
      let observed := (dispatch Store.log registry b path p).run (s, w)
      (dispatch (.nothing τ) registry b path p).run (u, w) = (observed.1, u, observed.2.2)) ∧
    ∀ t s₁, (Store.insertSighting t.sighting).run s = (.ok (), s₁) →
      Dispatch.Unrefused Store.log registry t.blob t.file t.params (s₁, w) →
      let observed := (handle Store.log registry t).run (s, w)
      (handle (.nothing τ) registry t).run (u, w) = (observed.1, u, observed.2.2) := by
  constructor
  · intro b path p h
    exact h.run_nothing u
  · intro t s₁ hs h observed
    have ho : observed = (dispatch Store.log registry t.blob t.file t.params).run (s₁, w) := by
      show (handle Store.log registry t).run (s, w) = _
      rw [Dispatch.run_handle, Store.log, hs]
    have hn : (handle (.nothing τ) registry t).run (u, w) =
        (dispatch (.nothing τ) registry t.blob t.file t.params).run (u, w) := rfl
    rw [ho, hn]
    exact h.run_nothing u

theorem extraction_unobserved_of_interrupt :
    let registry : Registry := ⟨[.elsewhere "first" ["text/plain"] 0 0 0], by decide⟩
    let t : Task := ⟨⟨"b", "text/plain", 1, by decide⟩, .ofString "/f", "/f", ⟨"i", [], none, none⟩⟩
    let w : Outside := { Outside.calm with results := [("first", [.error (.raised .interrupt "stop")])] }
    let s : Store := { Store.empty (.still 0) with
      events := [⟨1, "c", "i", EventType.hashComplete.name, EventStatus.success.name, [], 0⟩] }
    let dispatched := (dispatch Store.log registry t.blob t.file t.params).run (s, w)
    let handled := (handle Store.log registry t).run (s, w)
    (dispatch (.nothing Unit) registry t.blob t.file t.params).run ((), w) =
        (dispatched.1, (), dispatched.2.2) ∧
      (handle (.nothing Unit) registry t).run ((), w) = (handled.1, (), handled.2.2) := by
  intro registry t w s
  have hs : s.IsWritable := Store.isWritable_of_undisturbed rfl
  have hr : Store.sightingRowOf 1 0 t.sighting = .ok _ :=
    Store.sightingRowOf_eq_ok_iff.mpr ⟨"b", "i", 1, "/f", rfl, rfl, rfl, rfl, by decide, rfl⟩
  obtain ⟨s₁, hi, hw⟩ : ∃ s₁, (Store.insertSighting t.sighting).run s = (.ok (), s₁) ∧ s₁.IsWritable :=
    ⟨_, hs.run_insertSighting hr, hs.commit_never, hs.insert_never⟩
  have hd := Dispatch.unrefused_of_writable hs registry t.blob t.file t.params w
  have hh := Dispatch.unrefused_of_writable hw registry t.blob t.file t.params w
  exact ⟨(extraction_unobserved () registry s w).1 t.blob t.file t.params hd,
    (extraction_unobserved () registry s w).2 t s₁ hi hh⟩

end Intake
