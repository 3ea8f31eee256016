import Intake.Proofs.Sorting
import Intake.Proofs.Status.Histories

/-!
# One more event

A status is always built anew from all events. Still an event that comes after all others changes a status
only in what the event itself says, so that a status could be carried on from event to event.
-/
namespace Intake

/-- The errors that an event reports. -/
def Event.reported (e : Event) : List EventError := e.errors.toOption.getD []

/-- A history after an event. A run of the extractor comes last, and nothing is unknown any more. -/
def ExtractorHistory.after (e : Event) (h : ExtractorHistory) : ExtractorHistory :=
  if e.isRunOf h.extractor then ⟨h.extractor, h.timed ++ [e.update]⟩ else h

/-- A detail after an event, which counts if the event gives it. -/
def Status.DetailAfter (name : String) (e : Event) (old new : Option String) : Prop :=
  ∃ v, e.detail name = .ok v ∧
    ((v.truthy = true ∧ ∃ s, Status.detailText v = .ok s ∧ new = some s) ∨ (v.truthy = false ∧ new = old))

/-- How the status of a blob with the events `es` reads after one more event. -/
structure BlobStatus.Follows (es : List Event) (e : Event) (old new : BlobStatus) : Prop where
  start : new.start = old.start
  latest : new.latest = if old.latest.instant < e.moment.instant then e.moment else old.latest
  paths : new.paths = old.paths
  size : new.size = old.size
  sizes : new.sizes = old.sizes
  workspace : Status.DetailAfter "workspaceName" e old.workspace new.workspace
  mimeTypes : Status.DetailAfter "mimeTypes" e old.mimeTypes new.mimeTypes
  history : new.history = old.history ++ [Status.historyItem e]
  errors : new.errors = old.errors ++
    (e.reported.filter fun d => !old.errors.any d.same).eraseDupsBy EventError.same
  /-- Extractors that were listed before stay where they are. Those that the event lists come last, with
  the runs there were before they were listed. -/
  extractors : new.extractors = old.extractors.map (ExtractorHistory.after e) ++
    ((e.listed.filter fun x => !old.extractors.any fun h => x.same h.extractor).eraseDupsBy Value.same).map
      (Status.historyIn es)

namespace Status

variable {es : List Event} {e : Event}

theorem latestDetail_snoc {name : String} {old new : Option String} (ho : latestDetail name es = .ok old)
    (hn : latestDetail name (es ++ [e]) = .ok new) : DetailAfter name e old new := by
  rw [latestDetail, List.reverse_append, List.reverse_singleton, List.singleton_append] at hn
  obtain ⟨v, hv, hn⟩ := Lists.bind_eq_ok_iff.mp hn
  refine ⟨v, hv, ?_⟩
  split at hn
  · rename_i ht
    obtain ⟨s, hs, hn⟩ := Lists.bind_eq_ok_iff.mp hn
    exact .inl ⟨ht, s, hs, (Except.ok.inj hn).symm⟩
  · rename_i ht
    exact .inr ⟨Bool.eq_false_iff.mpr ht, Except.ok.inj (hn.symm.trans ho)⟩

theorem distinguishableErrors_ok {errors : List EventError} (h : distinguishableErrors e = .ok errors) :
    errors = e.reported := by
  obtain ⟨es, he, h⟩ := Lists.bind_eq_ok_iff.mp h
  rw [Event.reported, he]
  split at h
  · exact (Except.ok.inj h).symm
  · cases h

theorem errorsOf_ok {errors : List EventError} (h : errorsOf es = .ok errors) :
    errors = (es.flatMap Event.reported).eraseDupsBy EventError.same := by
  obtain ⟨all, ha, h⟩ := Lists.bind_eq_ok_iff.mp h
  have hall := Lists.eq_map_of_mapM (fun _ _ _ => distinguishableErrors_ok) ha
  rw [List.flatMap_def, ← hall, ← distinctErrors_eq]
  exact (Except.ok.inj h).symm

theorem historyIn_snoc (es : List Event) (e : Event) (x : Value) :
    historyIn (es ++ [e]) x = (historyIn es x).after e := by
  have hx : (historyIn es x).extractor = x := rfl
  rw [ExtractorHistory.after, hx, timed_historyIn, historyIn, List.filter_append]
  split
  · rename_i h
    simp [updatesOf, h]
  · rename_i h
    simp [historyIn, h]

theorem historyIn_snoc_of_listed {x : Value} (es : List Event) (h : e.listed ≠ []) :
    historyIn (es ++ [e]) x = historyIn es x := by
  have hx : ¬e.isRunOf x = true := fun hr => h (Event.listed_of_isRunOf hr)
  rw [historyIn_snoc, ExtractorHistory.after]
  exact if_neg hx

theorem historiesOf_snoc {old new : List ExtractorHistory} (ho : historiesOf es = .ok old)
    (hn : historiesOf (es ++ [e]) = .ok new) :
    new = old.map (ExtractorHistory.after e) ++
      ((e.listed.filter fun x => !old.any fun h => x.same h.extractor).eraseDupsBy Value.same).map
        (historyIn es) := by
  have ho := historiesOf_ok ho
  have hn := historiesOf_ok hn
  have hany (x : Value) : (old.any fun h => x.same h.extractor) =
      ((es.flatMap Event.listed).eraseDupsBy Value.same).any x.same := by
    rw [ho]
    exact List.any_map
  simp only [hany]
  rw [List.flatMap_append, Lists.eraseDupsBy_append, List.map_append] at hn
  rw [hn, ho, List.map_map]
  congr 1
  · exact List.map_congr_left fun x _ => historyIn_snoc es e x
  · rw [List.flatMap_singleton]
    apply List.map_congr_left
    intro x hx
    have hx : x ∈ e.listed := (List.mem_filter.mp ((Lists.eraseDupsBy_sublist _ _).subset hx)).1
    exact historyIn_snoc_of_listed es (List.ne_nil_of_mem hx)

theorem earliest_snoc {t : Timestamp} (ht : t.instant ≤ e.moment.instant)
    (h : ∀ d ∈ es, d.moment.instant ≤ e.moment.instant) : earliest t (es ++ [e]) = earliest t es := by
  have hle : (earliest t es).instant ≤ e.moment.instant := by
    obtain hm | ⟨d, hd, hm⟩ := earliest_mem t es
    · rwa [hm]
    · rw [hm]
      exact h d hd
  rw [earliest, List.foldl_append]
  exact if_neg (Int.not_lt.mpr hle)

theorem latest_snoc (t : Timestamp) (es : List Event) (e : Event) :
    latest t (es ++ [e]) =
      if (latest t es).instant < e.moment.instant then e.moment else latest t es := by
  rw [latest, List.foldl_append]
  rfl

theorem summary_snoc {b i : Option String} {rs : List Sighting} {old new : BlobStatus}
    (h : ∀ d ∈ es, d.moment.instant ≤ e.moment.instant) (ho : summary b i es rs false = .ok old)
    (hn : summary b i (es ++ [e]) rs false = .ok new) : old.Follows es e new := by
  obtain ⟨-, -, d, ds, rfl, hs, hl⟩ := summary_eq_ok ho
  obtain ⟨-, -, d', ds', hd, hs', hl'⟩ := summary_eq_ok hn
  obtain ⟨rfl, rfl⟩ := List.cons.inj hd
  have hp := parts_of_summary ho
  have hp' := parts_of_summary hn
  constructor
  · rw [hs, hs']
    exact earliest_snoc (h d List.mem_cons_self) h
  · rw [hl, hl']
    exact latest_snoc d.moment (d :: ds) e
  · rw [hp.paths, hp'.paths]
  · rw [hp.size, hp'.size]
  · rw [hp.sizes, hp'.sizes]
  · exact latestDetail_snoc hp.workspace hp'.workspace
  · exact latestDetail_snoc hp.mimeTypes hp'.mimeTypes
  · rw [hp.history, hp'.history, List.map_append, List.map_singleton]
  · rw [errorsOf_ok hp.errors, errorsOf_ok hp'.errors, List.flatMap_append, Lists.eraseDupsBy_append,
      List.flatMap_singleton]
  · exact historiesOf_snoc hp.extractors hp'.extractors

/-- An event that comes after all others changes a status only in what the event says. -/
theorem blobStatus_snoc {b i : Option String} {rs : List Sighting} {old new : BlobStatus}
    (h : ∀ d ∈ es, eventBefore d e = true) (ho : blobStatus b i es rs false = .ok old)
    (hn : blobStatus b i (es ++ [e]) rs false = .ok new) : old.Follows (es.mergeSort eventBefore) e new := by
  obtain ⟨-, ho⟩ := blobStatus_eq_ok_iff.mp ho
  obtain ⟨-, hn⟩ := blobStatus_eq_ok_iff.mp hn
  rw [Sorting.mergeSort_snoc eventBefore_trans eventBefore_total h] at hn
  refine summary_snoc (fun d hd => ?_) ho hn
  have hd := h d (List.mem_mergeSort.mp hd)
  simp only [eventBefore, decide_eq_true_eq] at hd
  omega

theorem blobStatus_snoc_of_late :
    let event (w : WallTime) (id : Int) (type status : String) (details : Members) : Event :=
      ⟨some "b", some "i", type, status, .object details, some (.withoutOffset w), some id⟩
    let t (w : WallTime) := Timestamp.withoutOffset w
    let es := [event 2 2 "RunExtractor" "Failure" [("extractorName", .text "z"), ("errors", .list [.text "m"])],
      event 1 1 "MimeTypeDetected" "Success" [("extractors", .list [.text "x"]), ("mimeTypes", .text "a/b")]]
    let e := event 2 3 "MimeTypeDetected" "Success" [("extractors", .list [.text "z", .text "w", .text "x"]),
      ("workspaceName", .list [.text "u", .text "v"]), ("errors", .list [.text "n", .text "m", .text "n"])]
    let rs : List Sighting := [⟨some "i", some "b", some 7, some "/f", none⟩]
    ∃ old new : BlobStatus, (∀ d ∈ es, eventBefore d e = true) ∧
      blobStatus (some "b") (some "i") es rs false = .ok old ∧
      blobStatus (some "b") (some "i") (es ++ [e]) rs false = .ok new ∧
      old.Follows (es.mergeSort eventBefore) e new ∧ new.workspace = some "u,v" ∧
      new.errors = [⟨"m", .null⟩, ⟨"n", .null⟩] ∧
      new.extractors = [⟨.text "x", [⟨none, .unknown⟩]⟩, ⟨.text "z", [⟨some (t 2), .failure⟩]⟩,
        ⟨.text "w", [⟨none, .unknown⟩]⟩] := by
  intro event t es e rs
  let detected : HistoryItem := ⟨t 1, "MimeTypeDetected", "Success"⟩
  let ran : HistoryItem := ⟨t 2, "RunExtractor", "Failure"⟩
  let last : HistoryItem := ⟨t 2, "MimeTypeDetected", "Success"⟩
  let x : ExtractorHistory := ⟨.text "x", [⟨none, .unknown⟩]⟩
  let z : ExtractorHistory := ⟨.text "z", [⟨some (t 2), .failure⟩]⟩
  let old : BlobStatus := ⟨some "b", some "i", t 1, t 2, [some "/f"], some 7, [(some "/f", some 7)], none,
    some "a/b", [detected, ran], [x], [⟨"m", .null⟩], false⟩
  let new : BlobStatus := { old with
    workspace := some "u,v"
    history := [detected, ran, last]
    extractors := [x, z, ⟨.text "w", [⟨none, .unknown⟩]⟩]
    errors := [⟨"m", .null⟩, ⟨"n", .null⟩] }
  have h : ∀ d ∈ es, eventBefore d e = true := by decide
  have ho : blobStatus (some "b") (some "i") es rs false = .ok old := by cbv
  have hn : blobStatus (some "b") (some "i") (es ++ [e]) rs false = .ok new := by cbv
  exact ⟨old, new, h, ho, hn, blobStatus_snoc h ho hn, rfl, rfl, rfl⟩

end Status
end Intake
