import Intake.Proofs.Dispatch.Abort

/-!
# Dispatching to one candidate

If the log takes every write, a dispatch to a single candidate runs it once, and a success is stored just when
the candidate came back with one.
-/
namespace Intake.Dispatch

variable {σ : Type} {log : EventLog σ} {b : Blob} {path : FilePath} {p : Params} {x : Extractor}

theorem Performed.refused_nil {ds : List Deed} {st st' : Store × Outside}
    (h : Performed Store.log b path p ds st st') (hf : Deed.Fresh ds) (hw : st.1.IsWritable) :
    ds.filterMap Deed.refused? = [] := by
  induction h with
  | nil st => rfl
  | @cons d ds st st₁ st₂ hd _ ih =>
    obtain ⟨s, w⟩ := st
    obtain ⟨s₁, w₁⟩ := st₁
    cases d with
    | stored e =>
      obtain ⟨s', hr, hw'⟩ := hw.insertEvent_fresh hf.of_stored
      cases hr.symm.trans hd.1
      exact ih hf.of_cons hw'
    | refused e f =>
      obtain ⟨s', hr, -⟩ := hw.insertEvent_fresh hf.of_refused
      cases hr.symm.trans hd.1
    | ended x r =>
      obtain ⟨-, rfl⟩ := hd
      exact ih hf.of_cons hw

theorem Performed.outside_eq {ds : List Deed} {st st' : σ × Outside}
    (h : Performed log b path p ds st st') (hd : ds.filterMap Deed.invoked? = []) : st'.2 = st.2 := by
  induction h with
  | nil st => rfl
  | @cons d ds st st₁ st₂ hdo _ ih =>
    cases d with
    | stored e => exact (ih hd).trans hdo.2
    | refused e f => exact (ih hd).trans hdo.2
    | ended x r => cases hd

theorem ran_ne_of_status {name : String} {s s' : EventStatus} {es es' : List EventError} (h : s ≠ s') :
    ran b p name s es ≠ ran b p name s' es' := by
  intro he
  have hn : s.name = s'.name := congrArg Event.status he
  cases s <;> cases s' <;> first | exact h rfl | exact absurd hn (by decide)

theorem Attempt.of_unrefused {ds : List Deed} {o : Except Fault (Outcome Value)} (h : Attempt b p x ds o)
    (hd : ds.filterMap Deed.refused? = []) :
    ∃ r ds', ds = .stored (ran b p x.name .started []) :: .ended x r :: ds' ∧
      ds'.filterMap Deed.invoked? = [] ∧
      (ran b p x.name .success [] ∈ ds'.filterMap Deed.stored? ↔ ∃ v, r = .ok (.success v)) := by
  have hn (es : List EventError) : ran b p x.name .failure es ≠ ran b p x.name .success [] :=
    ran_ne_of_status nofun
  cases h with
  | unstarted f => cases hd
  | unclosed h hc f => cases hd
  | misconfiguredUnclosed h g => cases hd
  | interrupted reason => exact ⟨_, _, rfl, rfl, by simp⟩
  | left h => exact ⟨_, _, rfl, rfl, by simp⟩
  | misconfigured h => exact ⟨_, _, rfl, rfl, by simp [Deed.stored?, unconfigured, (hn _).symm]⟩
  | @closed r o e h hc =>
    refine ⟨_, _, rfl, rfl, ?_⟩
    cases h with
    | unforeseen hm hs ho =>
      cases hc
      simp [Deed.stored?, (hn _).symm]
    | returned =>
      cases o with
      | success v =>
        cases hc
        simp [Deed.stored?]
      | interrupted reason => cases hc
      | failed f =>
        cases hc
        simp [Deed.stored?, (hn _).symm]

theorem Attempts.single {ds : List Deed} {os : Except Fault (List (Extractor × Outcome Value))}
    (h : Attempts b p [x] ds os) : ∃ o, Attempt b p x ds o := by
  cases h with
  | stop ha => exact ⟨_, ha⟩
  | @next _ _ ds ds' o r ha hs =>
    cases hs
    rw [List.append_nil]
    exact ⟨_, ha⟩

theorem ran_ne_detected (name : String) (st : EventStatus) (es : List EventError) (names : List String) :
    ran b p name st es ≠ detected b p names := by
  intro he
  have ht : EventType.runExtractor.name = EventType.mimeTypeDetected.name := congrArg Event.type he
  exact absurd ht (by decide)

theorem Performed.solo {e e' : Event} {r : Except Fault (Outcome Value)} {ds : List Deed}
    {st st' : σ × Outside}
    (h : Performed log b path p (.stored e :: .stored e' :: .ended x r :: ds) st st')
    (hi : ds.filterMap Deed.invoked? = []) :
    (x.extract b path p).run (st.2.log (.invoked x.name)) = (r, st'.2) := by
  obtain ⟨st₁, h₁, h⟩ := h.uncons
  obtain ⟨st₂, h₂, h⟩ := h.uncons
  obtain ⟨st₃, h₃, h⟩ := h.uncons
  rw [h.outside_eq hi, ← h₁.2, ← h₂.2, h₃.1]

/-- A writable store gets the success of a single candidate just when the candidate came back with one. -/
theorem dispatch_solo {registry : Registry} (hx : registry.candidates b.mimeType b.size = [x])
    (path : FilePath) (p : Params) {s : Store} (hs : s.IsWritable) (w : Outside) :
    let final := (dispatch Store.log registry b path p).run (s, w)
    ∃ rows r, final.2.1.events = s.events ++ rows ∧
      (x.extract b path p).run (w.log (.invoked x.name)) = (r, final.2.2) ∧
      (ran b p x.name .success [] ∈ rows.map EventRow.written ↔ ∃ v, r = .ok (.success v)) := by
  intro final
  obtain ⟨ds, hp, hc⟩ := dispatch_course Store.log registry b path p (s, w)
  obtain ⟨-, rows, he, hr⟩ := hp.rows hc.fresh
  have hd := hp.refused_nil hc.fresh hs
  rw [hx] at hc
  generalize hres : ((dispatch Store.log registry b path p).run (s, w)).1 = result at hc
  cases hc with
  | undetected f => cases hd
  | detected ha =>
    obtain ⟨o, ha⟩ := ha.single
    obtain ⟨r, ds', rfl, hi, hsucc⟩ := ha.of_unrefused hd
    refine ⟨rows, r, he, hp.solo hi, ?_⟩
    have hn : ran b p x.name .success [] ≠ ran b p x.name .started [] := ran_ne_of_status nofun
    rw [hr]
    show ran b p x.name .success [] ∈ detected b p _ :: ran b p x.name .started [] :: _ ↔ _
    rw [List.mem_cons, List.mem_cons, or_iff_right (ran_ne_detected _ _ _ _), or_iff_right hn]
    exact hsucc

end Intake.Dispatch
