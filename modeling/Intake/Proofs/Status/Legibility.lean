import Intake.Proofs.Dispatch.Session
import Intake.Proofs.Status.Locality
import Intake.Proofs.Status.News

/-!
# Logs that can be read

Every event that a dispatch can tell has what statuses ask of events, so that a log of such events never
keeps anyone from reading it, however many of them are missing.
-/
namespace Intake

/-- Whatever a status asks of an event, the event answers. -/
structure Event.Legible (e : Event) : Prop where
  extractors : Status.isOfType .mimeTypeDetected e = true →
    ∃ vs, (do (← e.detail "extractors").itemsIfGiven) = .ok vs
  extractor : Status.isOfType .runExtractor e = true → ∃ v, e.extractorName = .ok v
  errors : ∃ es, Status.distinguishableErrors e = .ok es
  workspace : ∃ t, e.detail "workspaceName" = .ok (.ofText? t)
  mimeTypes : ∃ t, e.detail "mimeTypes" = .ok (.ofText? t)

theorem EventRow.legible_toEvent {r : EventRow} (h : r.written.Legible) : r.toEvent.Legible :=
  ⟨h.extractors, h.extractor, h.errors, h.workspace, h.mimeTypes⟩

namespace Status

variable {es : List Event} {rs : List Sighting} {stuck : Bool}

theorem exists_latestDetail {name : String} (h : ∀ e ∈ es, ∃ t, e.detail name = .ok (.ofText? t)) :
    ∃ t, latestDetail name es = .ok t :=
  firstDetail_of_texts fun e he => h e (List.mem_reverse.mp he)

theorem exists_namedExtractors (h : ∀ e ∈ es, e.Legible) : ∃ vs, namedExtractors es = .ok vs := by
  have hn : ∀ e ∈ es.filter (isOfType .mimeTypeDetected),
      ∃ vs, (do (← e.detail "extractors").itemsIfGiven) = .ok vs := by
    intro e he
    obtain ⟨he, ht⟩ := List.mem_filter.mp he
    exact (h e he).extractors ht
  obtain ⟨named, hnamed⟩ := Lists.exists_mapM hn
  exact ⟨_, Lists.bind_eq_ok_iff.mpr ⟨named, hnamed, rfl⟩⟩

theorem exists_updateFor {e : Event} (h : e.Legible) (x : Value) : ∃ u, updateFor x e = .ok u := by
  rw [updateFor]
  split
  · rename_i ht
    obtain ⟨v, hv⟩ := h.extractor ht
    exact ⟨_, Lists.bind_eq_ok_iff.mpr ⟨v, hv, rfl⟩⟩
  · exact ⟨none, rfl⟩

theorem exists_historiesOf (h : ∀ e ∈ es, e.Legible) : ∃ hs, historiesOf es = .ok hs := by
  have hx (x : Value) : ∃ history, historyOf es x = .ok history := by
    obtain ⟨us, hus⟩ := Lists.exists_mapM fun e he => exists_updateFor (h e he) x
    exact ⟨_, Lists.bind_eq_ok_iff.mpr ⟨us, hus, rfl⟩⟩
  obtain ⟨xs, hxs⟩ := exists_namedExtractors h
  obtain ⟨hs, hhs⟩ := Lists.exists_mapM (l := xs) fun x _ => hx x
  exact ⟨hs, Lists.bind_eq_ok_iff.mpr ⟨xs, hxs, hhs⟩⟩

theorem exists_errorsOf (h : ∀ e ∈ es, e.Legible) : ∃ errors, errorsOf es = .ok errors := by
  obtain ⟨errors, herrors⟩ := Lists.exists_mapM fun e he => (h e he).errors
  exact ⟨_, Lists.bind_eq_ok_iff.mpr ⟨errors, herrors, rfl⟩⟩

theorem exists_summary (hn : es ≠ []) (h : ∀ e ∈ es, e.Legible) (b i : Option String)
    (rs : List Sighting) (stuck : Bool) : ∃ t, summary b i es rs stuck = .ok t := by
  obtain ⟨workspace, hw⟩ := exists_latestDetail fun e he => (h e he).workspace
  obtain ⟨mimeTypes, hm⟩ := exists_latestDetail fun e he => (h e he).mimeTypes
  obtain ⟨histories, hh⟩ := exists_historiesOf h
  obtain ⟨errors, he⟩ := exists_errorsOf h
  cases es with
  | nil => exact absurd rfl hn
  | cons e es =>
    cases stuck with
    | true => exact ⟨_, rfl⟩
    | false =>
      rw [summary, hw, hm, hh, he]
      exact ⟨_, rfl⟩

/-- Of events that can be read, and that a store gives out, each blob in each ingestion has one entry. -/
theorem reconstruct_of_legible (hes : Stored es) (hrs : StoredSightings rs) (h : ∀ e ∈ es, e.Legible)
    (threshold : Int) :
    ∃ answer, reconstruct es rs threshold = .ok answer ∧
      ∀ e ∈ es, ∃ t, (answer.filter fun t => (t.blobId, t.ingestId) == e.key) = [t] := by
  have hsum : ∀ key ∈ keysOf es, ∃ t, summaryOf es rs threshold key = .ok t := by
    intro key hk
    apply exists_summary (mem_keysOf_iff.mp hk)
    intro e he
    exact h e (List.mem_filter.mp he).1
  obtain ⟨answer, hanswer⟩ := (exists_reconstruct_iff hes hrs).mpr hsum
  refine ⟨answer, hanswer, ?_⟩
  intro e he
  have hk : e.key ∈ keysOf es := List.mem_eraseDups.mpr (List.mem_map_of_mem he)
  obtain ⟨t, ht⟩ := hsum e.key hk
  obtain ⟨answer', ha, hentry⟩ := reconstruct_entry hes hrs hsum hk ht
  obtain rfl := Except.ok.inj (hanswer.symm.trans ha)
  exact ⟨t, hentry⟩

theorem legible_detected (b i m : String) (xs : List Value) (w : Option String) :
    (Event.mimeTypeDetected (some b) (some i) m xs w).Legible where
  extractors _ := by
    rw [detail_detected, if_pos rfl]
    cases xs <;> exact ⟨_, rfl⟩
  extractor h := by cases h
  errors := by
    have he : (Event.mimeTypeDetected (some b) (some i) m xs w).errors = .ok [] := by
      rw [Event.errors, detail_detected]
      rfl
    exact ⟨[], by rw [distinguishableErrors, he]; rfl⟩
  workspace := text_of_detected b i (.inl rfl) m xs w
  mimeTypes := text_of_detected b i (.inr rfl) m xs w

theorem legible_ran (b i x : String) (s : EventStatus) (failures : List (String × Option String)) :
    (Event.runExtractor (some b) (some i) x s (failures.map EventError.ofPair)).Legible where
  extractors h := by cases h
  extractor _ := ⟨_, Event.extractorName_runExtractor (some b) (some i) x s _⟩
  errors := by
    have he := Event.errors_runExtractor (some b) (some i) x s (failures.map EventError.ofPair)
    have hk : ((failures.map EventError.ofPair).all fun d => d.stackTrace.isKey) = true := by
      rw [List.all_map, List.all_eq_true]
      rintro ⟨message, _ | trace⟩ - <;> rfl
    exact ⟨_, by rw [distinguishableErrors, he]; exact if_pos hk⟩
  workspace := text_of_ran b i (.inl rfl) x s _
  mimeTypes := text_of_ran b i (.inr rfl) x s _

end Status

/-- What a dispatch tells can be read, whatever its texts are. -/
theorem Dispatch.Tells.legible {b : Blob} {p : Params} {e : Event} (h : Tells b p e) : e.Legible := by
  cases h with
  | detected names => exact Status.legible_detected b.id p.ingestId b.mimeType (names.map .text) p.workspace
  | ran name s failures => exact Status.legible_ran b.id p.ingestId name s failures

/-- A log that sessions have written can always be read, whatever the database refused and however the
extractors ended. Asked for statuses of any ingestions, the store answers unless the database refuses one of
the two queries, and then the fault is one of reading; and the answer has one entry for each blob in each
ingestion that left an event. -/
theorem Errand.statuses_readable (errands : List Errand) (clock : Clock) (d : Disturbances) (scope : Scope)
    (threshold : Int) :
    let s := afterAll errands { Store.empty clock with disturbances := d }
    let result := ((Store.log.statuses scope threshold).run s).1
    (s.disturbances.query 0 = none ∧ s.disturbances.query 1 = none ∧ ∃ answer, result = .ok answer ∧
        ∀ r ∈ s.events, Store.inScope scope r.ingestId = true →
          ∃ t, (answer.filter fun t => (t.blobId, t.ingestId) == (some r.blobId, some r.ingestId)) = [t]) ∨
      ∃ f words, result = .error f ∧ f.kind = .storageRead ∧ f.cause? = some words ∧
        (s.disturbances.query 0 = some words ∨
          s.disturbances.query 0 = none ∧ s.disturbances.query 1 = some words) := by
  intro s result
  have hlegible : ∀ r ∈ s.events, r.written.Legible := by
    apply events_afterAll (P := fun rows => ∀ r ∈ rows, r.written.Legible)
    · intro b p xs ds r l l' hc he hl
      apply he.forall_written hl
      intro e hm
      exact (hc.tells e (Dispatch.mem_told_of_stored hm)).legible
    · exact fun b h r hr => h r (List.mem_filter.mp hr).1
    · exact nofun
  obtain ⟨h₀, h₁, hr⟩ | h := s.statuses_cases scope threshold
  · have hread : ∀ e ∈ s.eventsIn scope, e.Legible := by
      intro e he
      obtain ⟨r, hrow, -, rfl⟩ := Store.mem_eventsIn_iff.mp he
      exact EventRow.legible_toEvent (hlegible r hrow)
    obtain ⟨answer, ha, hentries⟩ := Status.reconstruct_of_legible (s.stored_eventsIn scope)
      (s.stored_sightingsIn scope) hread threshold
    refine .inl ⟨h₀, h₁, answer, hr.trans ha, ?_⟩
    intro r hrow hscope
    exact hentries r.toEvent (Store.mem_eventsIn_iff.mpr ⟨r, hrow, hscope, rfl⟩)
  · exact .inr h

end Intake
