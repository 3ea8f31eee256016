import Intake.Proofs.Status.Summary
import Mathlib

/-!
# Where the runs of extractors go

The histories of the extractors of a blob hold every run of an extractor that an event about a media type
lists, once and in one place. That no run has two places rests on sameness of names being an equivalence.
-/
namespace Intake

namespace Event

/-- The extractors that an event about a media type lists. -/
def listed (e : Event) : List Value :=
  if Status.isOfType .mimeTypeDetected e then
    ((e.detail "extractors").bind Value.itemsIfGiven).toOption.getD []
  else []

/-- Whether an event is about a run of an extractor. -/
def isRunOf (x : Value) (e : Event) : Bool :=
  Status.isOfType .runExtractor e && e.extractorName.toOption.any fun name => name.same x

/-- The update that a run amounts to. -/
def update (e : Event) : StatusUpdate := ⟨some e.moment, .ofName e.status⟩

variable {x y : Value} {e : Event}

theorem isRunOf_iff : e.isRunOf x = true ↔
    Status.isOfType .runExtractor e = true ∧ ∃ name, e.extractorName = .ok name ∧ name.same x = true := by
  cases hn : e.extractorName <;> simp [isRunOf, hn, Except.toOption]

theorem listed_of_isRunOf (h : e.isRunOf x = true) : e.listed = [] := by
  have ht : e.type = EventType.runExtractor.name := eq_of_beq (isRunOf_iff.mp h).1
  have hd : Status.isOfType .mimeTypeDetected e = false := by
    rw [Status.isOfType, ht]
    decide
  simp [listed, hd]

theorem isRunOf_of_same (h : y.same x = true) (hy : e.isRunOf y = true) : e.isRunOf x = true := by
  obtain ⟨ht, name, hn, hy⟩ := isRunOf_iff.mp hy
  exact isRunOf_iff.mpr ⟨ht, name, hn, Value.same_trans hy h⟩

theorem same_of_isRunOf (hx : e.isRunOf x = true) (hy : e.isRunOf y = true) : x.same y = true := by
  obtain ⟨-, name, hn, hx⟩ := isRunOf_iff.mp hx
  obtain ⟨-, name', hn', hy⟩ := isRunOf_iff.mp hy
  obtain rfl : name = name' := Except.ok.inj (hn.symm.trans hn')
  rw [Value.same_comm] at hx
  exact Value.same_trans hx hy

end Event

/-- The updates that tell when they happened. -/
def ExtractorHistory.timed (h : ExtractorHistory) : List StatusUpdate :=
  h.updates.filter fun u => u.time.isSome

theorem ExtractorState.name_ofName (s : String) :
    (ofName s).name = if s ∈ ["Started", "Success", "Failure"] then s else "Unknown" := by
  rw [ofName]
  cases hf : all.find? fun k => k.name == s with
  | some k =>
    have hk := List.find?_some hf
    obtain rfl : k.name = s := by simpa using hk
    cases k <;> rfl
  | none =>
    have hs := List.find?_eq_none.mp hf
    simp [all, name] at hs
    simp [name, Ne.symm hs.2.1, Ne.symm hs.2.2.1, Ne.symm hs.2.2.2]

namespace Status

/-- The updates of an extractor that ran so often. One that never ran has one that tells nothing. -/
def updatesOf (runs : List Event) : List StatusUpdate :=
  if runs.isEmpty then [⟨none, .unknown⟩] else runs.map Event.update

/-- The history of an extractor in events that are in order and can be read. -/
def historyIn (es : List Event) (x : Value) : ExtractorHistory :=
  ⟨x, updatesOf (es.filter (Event.isRunOf x))⟩

variable {es : List Event} {x : Value}

theorem timed_historyIn (es : List Event) (x : Value) :
    (historyIn es x).timed = (es.filter (Event.isRunOf x)).map Event.update := by
  rw [historyIn, ExtractorHistory.timed, updatesOf]
  split
  · rename_i h
    simp [List.isEmpty_iff.mp h]
  · simp [List.filter_map, Event.update, Function.comp_def]

theorem updateFor_ok {e : Event} {u : Option StatusUpdate} (h : updateFor x e = .ok u) :
    u = if e.isRunOf x then some e.update else none := by
  unfold updateFor at h
  split at h
  · rename_i ht
    obtain ⟨name, hn, h⟩ := Lists.bind_eq_ok_iff.mp h
    have hr : e.isRunOf x = name.same x := by simp [Event.isRunOf, ht, hn, Except.toOption]
    rw [hr]
    exact (Except.ok.inj h).symm
  · rename_i ht
    have hr : e.isRunOf x = false := by simp [Event.isRunOf, ht]
    rw [hr]
    exact (Except.ok.inj h).symm

theorem historyOf_ok {k : ExtractorHistory} (h : historyOf es x = .ok k) : k = historyIn es x := by
  obtain ⟨us, hus, h⟩ := Lists.bind_eq_ok_iff.mp h
  have hu : us.filterMap (fun u => u) = (es.filter (Event.isRunOf x)).map Event.update := by
    rw [Lists.eq_map_of_mapM (fun _ _ _ => updateFor_ok) hus, List.filterMap_map, ← List.filterMap_eq_map,
      List.filterMap_filter]
    rfl
  rw [hu] at h
  have hk := (Except.ok.inj h).symm
  rw [hk, historyIn, updatesOf]
  simp

theorem flatMap_listed (es : List Event) :
    (es.filter (isOfType .mimeTypeDetected)).flatMap Event.listed = es.flatMap Event.listed := by
  induction es with
  | nil => rfl
  | cons e es ih =>
    by_cases h : isOfType .mimeTypeDetected e
    · rw [List.filter_cons_of_pos h, List.flatMap_cons, List.flatMap_cons, ih]
    · have he : e.listed = [] := by simp [Event.listed, h]
      rw [List.filter_cons_of_neg h, List.flatMap_cons, he, List.nil_append, ih]

theorem namedExtractors_ok {vs : List Value} (h : namedExtractors es = .ok vs) :
    vs = (es.flatMap Event.listed).eraseDupsBy Value.same := by
  obtain ⟨named, hn, h⟩ := Lists.bind_eq_ok_iff.mp h
  have hl : named = (es.filter (isOfType .mimeTypeDetected)).map Event.listed := by
    refine Lists.eq_map_of_mapM (fun e he vs hvs => ?_) hn
    have ht := (List.mem_filter.mp he).2
    have hd : (e.detail "extractors").bind Value.itemsIfGiven = .ok vs := hvs
    rw [Event.listed, if_pos ht, hd]
    rfl
  have hf : named.flatten = es.flatMap Event.listed := by
    rw [hl, ← List.flatMap_def]
    exact flatMap_listed es
  rw [← hf, ← distinct_eq]
  exact (Except.ok.inj h).symm

theorem historiesOf_ok {hs : List ExtractorHistory} (h : historiesOf es = .ok hs) :
    hs = ((es.flatMap Event.listed).eraseDupsBy Value.same).map (historyIn es) := by
  obtain ⟨names, hn, h⟩ := Lists.bind_eq_ok_iff.mp h
  rw [← namedExtractors_ok hn]
  exact Lists.eq_map_of_mapM (fun _ _ _ => historyOf_ok) h

theorem extractorHistories_ok {hs : List ExtractorHistory} (h : extractorHistories es = .ok hs) :
    historiesOf (es.mergeSort eventBefore) = .ok hs ∧ ∀ e ∈ es, e.time.isSome = true := by
  obtain ⟨_, hm, h⟩ := Lists.bind_eq_ok_iff.mp h
  obtain ⟨ds, hd, h⟩ := Lists.bind_eq_ok_iff.mp h
  obtain ⟨-, rfl⟩ := orderEvents_ok hd
  exact ⟨h, requireMoments_eq_ok_iff.mp hm⟩

/-- Whether an event is about a run of an extractor that one of the events lists. -/
def isListedRun (es : List Event) (e : Event) : Bool := (es.flatMap Event.listed).any fun x => e.isRunOf x

/-- The histories of extractors hold what the events tell of runs. -/
structure Conserves (es : List Event) (hs : List ExtractorHistory) : Prop where
  /-- The extractors are those that events list, each where it is listed first. -/
  names : hs.map ExtractorHistory.extractor =
    ((es.mergeSort eventBefore).flatMap Event.listed).eraseDupsBy Value.same
  distinct : hs.Pairwise fun h k => h.extractor.same k.extractor = false
  /-- The updates of an extractor are its runs in order, or tell nothing if there are none. -/
  updates : ∀ h ∈ hs,
    h.updates = updatesOf ((es.filter (Event.isRunOf h.extractor)).mergeSort eventBefore)
  /-- A run of a listed extractor is in exactly one history, and nothing else is in any. -/
  once : ∀ e ∈ es, isListedRun es e = true → ∃ h, (hs.filter fun k => e.isRunOf k.extractor) = [h]
  none : ∀ e ∈ es, isListedRun es e = false → (hs.filter fun k => e.isRunOf k.extractor) = []
  total : (hs.flatMap ExtractorHistory.timed).Perm ((es.filter (isListedRun es)).map Event.update)
  count : (hs.map fun h => h.timed.length).sum = es.countP (isListedRun es)
  times : ∀ e ∈ es, e.update.time = e.time
  states : ∀ e ∈ es, e.update.state.name =
    if e.status ∈ ["Started", "Success", "Failure"] then e.status else "Unknown"

theorem map_extractor_historyIn (es : List Event) (xs : List Value) :
    (xs.map (historyIn es)).map ExtractorHistory.extractor = xs := by
  rw [List.map_map]
  exact List.map_id' xs

theorem pairwise_isRunOf {xs : List Value} (h : xs.Pairwise fun x y => x.same y = false) :
    xs.Pairwise fun x y => ∀ e : Event, e.isRunOf x = true → e.isRunOf y = false := by
  refine h.imp fun {x y} hxy e hx => ?_
  rw [Bool.eq_false_iff]
  intro hy
  rw [Event.same_of_isRunOf hx hy] at hxy
  cases hxy

/-- The timed updates of all histories are the runs of all their extractors. -/
theorem flatMap_timed_perm {xs : List Value} (h : xs.Pairwise fun x y => x.same y = false)
    (es : List Event) :
    ((xs.map (historyIn es)).flatMap ExtractorHistory.timed).Perm
      ((es.filter fun e => xs.any fun x => e.isRunOf x).map Event.update) := by
  have ht : (xs.map (historyIn es)).flatMap ExtractorHistory.timed =
      (xs.flatMap fun x => es.filter (Event.isRunOf x)).map Event.update := by
    rw [List.flatMap_map, List.map_flatMap]
    exact congrArg (fun f => xs.flatMap f) (funext (timed_historyIn es))
  rw [ht]
  exact (Lists.flatMap_filter_perm (pairwise_isRunOf h) es).map _

theorem isListedRun_eq (es : List Event) (e : Event) :
    isListedRun es e =
      (((es.mergeSort eventBefore).flatMap Event.listed).eraseDupsBy Value.same).any fun x => e.isRunOf x := by
  rw [Lists.any_eraseDupsBy Value.same fun _ _ => Event.isRunOf_of_same]
  exact ((List.mergeSort_perm es eventBefore).symm.flatMap_right Event.listed).any_eq

/-- No run of an extractor that is listed is lost, told twice or put in the wrong place. -/
theorem extractorHistories_conserve {hs : List ExtractorHistory} (h : extractorHistories es = .ok hs) :
    Conserves es hs := by
  obtain ⟨h, hm⟩ := extractorHistories_ok h
  have hlisted := isListedRun_eq es
  generalize hx : ((es.mergeSort eventBefore).flatMap Event.listed).eraseDupsBy Value.same = xs at hlisted
  obtain rfl : hs = xs.map (historyIn (es.mergeSort eventBefore)) := hx ▸ historiesOf_ok h
  have hxs : xs.Pairwise fun x y => x.same y = false := by
    rw [← hx]
    exact (Lists.pairwise_eraseDupsBy Value.same _).imp fun {x y} hyx => (Value.same_comm x y).trans hyx
  have hany (e : Event) : ((xs.map (historyIn (es.mergeSort eventBefore))).any fun h =>
      e.isRunOf h.extractor) = isListedRun es e := List.any_map.trans (hlisted e).symm
  have htotal := flatMap_timed_perm hxs (es.mergeSort eventBefore)
  rw [← funext hlisted] at htotal
  have htotal := htotal.trans (((List.mergeSort_perm es eventBefore).filter _).map _)
  constructor
  · rw [map_extractor_historyIn, hx]
  · exact List.pairwise_map.mpr hxs
  · intro k hk
    obtain ⟨x, -, rfl⟩ := List.mem_map.mp hk
    show updatesOf _ = updatesOf ((es.filter (Event.isRunOf x)).mergeSort eventBefore)
    rw [← Sorting.filter_mergeSort eventBefore_trans eventBefore_total]
  · intro e _ he
    obtain ⟨k, hk, he⟩ := List.any_eq_true.mp ((hany e).trans he)
    refine ⟨k, Lists.filter_eq_singleton ?_ hk he⟩
    exact List.pairwise_map.mpr ((pairwise_isRunOf hxs).imp fun h => h e)
  · intro e _ he
    rw [List.filter_eq_nil_iff]
    exact List.any_eq_false.mp ((hany e).trans he)
  · exact htotal
  · have hl := htotal.length_eq
    rwa [List.length_flatMap, List.length_map, ← List.countP_eq_length_filter] at hl
  · intro e he
    obtain ⟨t, ht⟩ := Option.isSome_iff_exists.mp (hm e he)
    simp [Event.update, Event.moment, ht]
  · exact fun e _ => ExtractorState.name_ofName e.status

theorem extractorHistories_conserve_of_late :
    let event (w : WallTime) (id : Int) (type status : String) (details : Members) : Event :=
      ⟨some "b", some "i", type, status, .object details, some (.withoutOffset w), some id⟩
    let ran (w : WallTime) (id : Int) (status : String) (x : Value) : Event :=
      event w id "RunExtractor" status [("extractorName", x)]
    let detected (w : WallTime) (id : Int) (xs : List Value) : Event :=
      event w id "MimeTypeDetected" "Success" [("extractors", .list xs)]
    let es := [ran 2 3 "Started" (.boolean true), detected 1 1 [.integer 1, .text "x", .boolean true],
      ran 2 2 "Paused" (.text "x"), detected 3 4 [.boolean true, .text "y"], ran 4 5 "Success" (.integer 1),
      ran 4 6 "Success" (.text "z")]
    let reached (w : WallTime) (state : ExtractorState) : StatusUpdate := ⟨some (.withoutOffset w), state⟩
    let hs : List ExtractorHistory := [⟨.integer 1, [reached 2 .started, reached 4 .success]⟩,
      ⟨.text "x", [reached 2 .unknown]⟩, ⟨.text "y", [⟨none, .unknown⟩]⟩]
    extractorHistories es = .ok hs ∧ Conserves es hs := by
  intro event ran detected es reached hs
  have h : extractorHistories es = .ok hs := by cbv
  exact ⟨h, extractorHistories_conserve h⟩

end Status
end Intake
