import Intake.Proofs.Dispatch.Course
import Mathlib.Data.List.Chain

/-!
# A dispatch cut short

Which faults leave a dispatch, and what is in the store when one does.
-/
namespace Intake.Dispatch

variable {b : Blob} {path : FilePath} {p : Params} {x : Extractor}

def Deed.told? : Deed → Option Event
  | .stored e => some e
  | .refused e _ => some e
  | .ended _ _ => none

/-- The events that a dispatch can tell. An error has a message, and a text for its trace if it has one. -/
inductive Tells (b : Blob) (p : Params) : Event → Prop
  | detected (names : List String) : Tells b p (detected b p names)
  | ran (name : String) (s : EventStatus) (failures : List (String × Option String)) :
      Tells b p (ran b p name s (failures.map fun f => ⟨f.1, .ofText? f.2⟩))

theorem tells_started (b : Blob) (p : Params) (name : String) : Tells b p (ran b p name .started []) :=
  .ran name .started []

theorem tells_of_closing? {name : String} {o : Outcome Value} {e : Event}
    (h : closing? b p name o = some e) : Tells b p e := by
  cases o with
  | success v =>
    cases h
    exact .ran name .success []
  | interrupted reason => cases h
  | failed f =>
    cases h
    exact .ran name .failure [(f.message, f.stackTrace)]

theorem tells_unconfigured (b : Blob) (p : Params) (name : String) (f : Fault) :
    Tells b p (unconfigured b p name f) :=
  .ran name .failure [(f.message, none)]

theorem mem_told_of_stored {ds : List Deed} {e : Event} (h : e ∈ ds.filterMap Deed.stored?) :
    e ∈ ds.filterMap Deed.told? := by
  obtain ⟨d, hd, he⟩ := List.mem_filterMap.mp h
  cases d with
  | stored e' => exact List.mem_filterMap.mpr ⟨_, hd, he⟩
  | refused e' f => cases he
  | ended x r => cases he

theorem isFresh_detected (b : Blob) (p : Params) (names : List String) : (detected b p names).IsFresh :=
  ⟨⟨b.id, rfl⟩, ⟨p.ingestId, rfl⟩, ⟨_, rfl⟩, rfl, rfl⟩

theorem isFresh_ran (b : Blob) (p : Params) (name : String) (s : EventStatus) (es : List EventError) :
    (ran b p name s es).IsFresh :=
  ⟨⟨b.id, rfl⟩, ⟨p.ingestId, rfl⟩, ⟨_, rfl⟩, rfl, rfl⟩

theorem Tells.isFresh {e : Event} (h : Tells b p e) : e.IsFresh := by
  cases h with
  | detected names => exact isFresh_detected b p names
  | ran name s failures => exact isFresh_ran b p name s _

theorem isFresh_of_closing? {name : String} {o : Outcome Value} {e : Event}
    (h : closing? b p name o = some e) : e.IsFresh :=
  (tells_of_closing? h).isFresh

/-- All that deeds tell the log is fresh. -/
def Deed.Fresh (ds : List Deed) : Prop := ∀ e ∈ ds.filterMap Deed.told?, e.IsFresh

namespace Deed.Fresh

variable {d : Deed} {ds : List Deed} {e : Event} {f : Fault}

theorem of_stored (h : Fresh (.stored e :: ds)) : e.IsFresh := h e List.mem_cons_self

theorem of_refused (h : Fresh (.refused e f :: ds)) : e.IsFresh := h e List.mem_cons_self

theorem of_cons (h : Fresh (d :: ds)) : Fresh ds := by
  intro e he
  apply h e
  rw [List.filterMap_cons]
  split
  · exact he
  · exact List.mem_cons_of_mem _ he

end Deed.Fresh

theorem Attempt.tells {ds : List Deed} {r : Except Fault (Outcome Value)} (h : Attempt b p x ds r) :
    ∀ e ∈ ds.filterMap Deed.told?, Tells b p e := by
  have hs := tells_started b p x.name
  cases h with
  | unstarted f => simpa [Deed.told?] using hs
  | interrupted reason => simpa [Deed.told?] using hs
  | closed h hc => simpa [Deed.told?] using And.intro hs (tells_of_closing? hc)
  | unclosed h hc f => simpa [Deed.told?] using And.intro hs (tells_of_closing? hc)
  | left h => simpa [Deed.told?] using hs
  | misconfigured h => simpa [Deed.told?] using And.intro hs (tells_unconfigured ..)
  | misconfiguredUnclosed h g => simpa [Deed.told?] using And.intro hs (tells_unconfigured ..)

theorem Attempts.tells {xs : List Extractor} {ds : List Deed}
    {r : Except Fault (List (Extractor × Outcome Value))} (h : Attempts b p xs ds r) :
    ∀ e ∈ ds.filterMap Deed.told?, Tells b p e := by
  induction h with
  | nil => simp
  | next ha _ ih =>
    intro e he
    rw [List.filterMap_append] at he
    exact (List.mem_append.mp he).elim (ha.tells e) (ih e)
  | stop ha => exact ha.tells

theorem Course.tells {xs : List Extractor} {ds : List Deed} {r : Except Fault Report}
    (h : Course b p xs ds r) : ∀ e ∈ ds.filterMap Deed.told?, Tells b p e := by
  have hd : Tells b p (Dispatch.detected b p (xs.map Extractor.name)) := .detected _
  cases h with
  | undetected f => simpa [Deed.told?] using hd
  | detected ha =>
    intro e he
    rcases List.mem_cons.mp he with rfl | he
    · exact hd
    · exact ha.tells e he

theorem Course.fresh {xs : List Extractor} {ds : List Deed} {r : Except Fault Report}
    (h : Course b p xs ds r) : Deed.Fresh ds :=
  fun e he => (h.tells e he).isFresh

/-- Deeds that tell the store fresh events add one row for each event that was stored, and nothing else. -/
theorem Performed.rows {ds : List Deed} {st st' : Store × Outside}
    (h : Performed Store.log b path p ds st st') (hf : Deed.Fresh ds) :
    st'.1.sightings = st.1.sightings ∧
      ∃ rows, st'.1.events = st.1.events ++ rows ∧ rows.map EventRow.written = ds.filterMap Deed.stored? := by
  induction h with
  | nil st => exact ⟨rfl, [], (List.append_nil _).symm, rfl⟩
  | @cons d ds st st₁ st₂ hd _ ih =>
    obtain ⟨s, w⟩ := st
    obtain ⟨s₁, w₁⟩ := st₁
    obtain ⟨hsi, rows, hev, hw⟩ := ih hf.of_cons
    cases d with
    | stored e =>
      obtain ⟨r, hr, -, -, rfl⟩ := Store.insertEvent_fresh_ok hf.of_stored hd.1
      refine ⟨hsi, r :: rows, ?_, ?_⟩
      · rw [hev, List.append_assoc, List.singleton_append]
      · rw [List.map_cons, hr, hw]
        rfl
    | refused e f =>
      obtain ⟨⟨_, rfl, -⟩, -⟩ := Store.insertEvent_error hd.1
      exact ⟨hsi, rows, hev, hw⟩
    | ended x r =>
      obtain ⟨-, rfl⟩ := hd
      exact ⟨hsi, rows, hev, hw⟩

theorem Performed.refused_kind {ds : List Deed} {st st' : Store × Outside}
    (h : Performed Store.log b path p ds st st') (hf : Deed.Fresh ds) :
    ∀ e f, Deed.refused e f ∈ ds → f.kind = .storageWrite := by
  induction h with
  | nil st => simp
  | @cons d ds st st₁ st₂ hd _ ih =>
    intro e f hm
    rcases List.mem_cons.mp hm with rfl | hm
    · obtain ⟨words, rfl⟩ := Store.insertEvent_fresh_error hf.of_refused hd.1
      rfl
    · exact ih hf.of_cons e f hm

/-- The ways in which a fault cuts a dispatch short. Nothing follows, and the log took all before. -/
inductive CutShort (b : Blob) (p : Params) : List Deed → Fault → Prop
  | refused (ds : List Deed) {e : Event} {f : Fault} (hd : ds.filterMap Deed.refused? = []) :
      CutShort b p (ds ++ [.refused e f]) f
  | left (ds : List Deed) {x : Extractor} {f : Fault} (hd : ds.filterMap Deed.refused? = [])
      (h : f.kind.isStorage = true ∨ f.kind.isOrdinary = false) :
      CutShort b p (ds ++ [.ended x (.error f)]) f
  | misconfigured (ds : List Deed) {x : Extractor} {f : Fault} (hd : ds.filterMap Deed.refused? = [])
      (h : f.kind = .missingParameter) :
      CutShort b p (ds ++ [.ended x (.error f), .stored (unconfigured b p x.name f)]) f

theorem CutShort.after (ds : List Deed) {ds' : List Deed} {f : Fault}
    (hd : ds.filterMap Deed.refused? = []) (h : CutShort b p ds' f) : CutShort b p (ds ++ ds') f := by
  have hj (ds' : List Deed) (h' : ds'.filterMap Deed.refused? = []) :
      (ds ++ ds').filterMap Deed.refused? = [] := by
    rw [List.filterMap_append, hd, h', List.nil_append]
  cases h with
  | refused _ h' => rw [← List.append_assoc]; exact .refused _ (hj _ h')
  | left _ h' hk => rw [← List.append_assoc]; exact .left _ (hj _ h') hk
  | misconfigured _ h' hk => rw [← List.append_assoc]; exact .misconfigured _ (hj _ h') hk

theorem Attempt.not_refused {ds : List Deed} {o : Outcome Value} (h : Attempt b p x ds (.ok o)) :
    ds.filterMap Deed.refused? = [] := by
  cases h <;> rfl

theorem Attempt.cutShort {ds : List Deed} {f : Fault} (h : Attempt b p x ds (.error f)) :
    CutShort b p ds f := by
  cases h with
  | unstarted => exact CutShort.refused [] rfl
  | unclosed => exact CutShort.refused [_, _] rfl
  | left h => exact CutShort.left [_] rfl h
  | misconfigured h => exact CutShort.misconfigured [_] rfl h
  | misconfiguredUnclosed => exact CutShort.refused [_, _] rfl

theorem Attempts.cutShort {xs : List Extractor} {ds : List Deed}
    {r : Except Fault (List (Extractor × Outcome Value))} (h : Attempts b p xs ds r) {f : Fault}
    (hf : r = .error f) : CutShort b p ds f := by
  induction h with
  | nil => cases hf
  | @next x xs ds ds' o r ha _ ih =>
    cases r with
    | ok os => cases hf
    | error g =>
      cases hf
      exact .after ds ha.not_refused (ih rfl)
  | stop ha =>
    cases hf
    exact ha.cutShort

theorem Course.cutShort {xs : List Extractor} {ds : List Deed} {f : Fault}
    (h : Course b p xs ds (.error f)) : CutShort b p ds f := by
  generalize hr : (Except.error f : Except Fault Report) = r at h
  cases h with
  | undetected g =>
    cases hr
    exact CutShort.refused [] rfl
  | @detected ds os ha =>
    cases os with
    | ok os => cases hr
    | error g =>
      cases hr
      exact .after [_] rfl (ha.cutShort rfl)

/-- An extractor comes back only right after its start was stored. -/
def StartsFirst (b : Blob) (p : Params) (d d' : Deed) : Prop :=
  ∀ x r, d' = .ended x r → d = .stored (ran b p x.name .started [])

theorem Attempt.startsFirst {ds : List Deed} {r : Except Fault (Outcome Value)}
    (h : Attempt b p x ds r) :
    ds.IsChain (StartsFirst b p) ∧ ∀ d ∈ ds.head?, d.invoked? = none := by
  cases h <;> simp [StartsFirst, Deed.invoked?]

theorem Attempts.startsFirst {xs : List Extractor} {ds : List Deed}
    {r : Except Fault (List (Extractor × Outcome Value))} (h : Attempts b p xs ds r) :
    ds.IsChain (StartsFirst b p) ∧ ∀ d ∈ ds.head?, d.invoked? = none := by
  induction h with
  | nil => simp
  | @next x xs ds ds' o r ha _ ih =>
    constructor
    · -- Where two attempts meet, the second begins with its start and not with an extractor.
      apply ha.startsFirst.1.append ih.1
      intro d _ d' hd' x r he
      have := ih.2 d' hd'
      rw [he] at this
      cases this
    · intro d hd
      cases ds with
      | nil => exact ih.2 d hd
      | cons d' ds => exact ha.startsFirst.2 d hd
  | stop ha => exact ha.startsFirst

theorem Course.startsFirst {xs : List Extractor} {ds : List Deed} {r : Except Fault Report}
    (h : Course b p xs ds r) :
    ds.IsChain (StartsFirst b p) ∧ ∀ d ∈ ds.head?, d.invoked? = none := by
  cases h with
  | undetected f => simp [Deed.invoked?]
  | detected ha =>
    obtain ⟨hc, hh⟩ := ha.startsFirst
    refine ⟨hc.cons ?_, by simp [Deed.invoked?]⟩
    intro d hd x r he
    have := hh d hd
    rw [he] at this
    cases this

theorem Attempt.invoked {ds : List Deed} {r : Except Fault (Outcome Value)} (h : Attempt b p x ds r) :
    ds.filterMap Deed.invoked? <+: [x] ∧ ∀ o, r = .ok o → ds.filterMap Deed.invoked? = [x] := by
  cases h <;> simp [List.filterMap_cons, Deed.invoked?]

theorem Attempts.invoked {xs : List Extractor} {ds : List Deed}
    {r : Except Fault (List (Extractor × Outcome Value))} (h : Attempts b p xs ds r) :
    ds.filterMap Deed.invoked? <+: xs ∧ ∀ os, r = .ok os → ds.filterMap Deed.invoked? = xs := by
  induction h with
  | nil => simp
  | @next x xs ds ds' o r ha _ ih =>
    rw [List.filterMap_append, ha.invoked.2 o rfl]
    refine ⟨List.prefix_append_right_inj [x] |>.mpr ih.1, ?_⟩
    intro os hr
    cases r with
    | ok os' => rw [ih.2 os' rfl]; rfl
    | error f => cases hr
  | @stop x xs ds f ha =>
    exact ⟨ha.invoked.1.trans (List.prefix_append [x] xs), nofun⟩

/-- The extractors that run are the first of the candidates, and all of them if there is a report. -/
theorem Course.invoked {xs : List Extractor} {ds : List Deed} {r : Except Fault Report}
    (h : Course b p xs ds r) :
    ds.filterMap Deed.invoked? <+: xs ∧ ∀ report, r = .ok report → ds.filterMap Deed.invoked? = xs := by
  cases h with
  | undetected f => exact ⟨List.nil_prefix, nofun⟩
  | @detected ds os ha =>
    refine ⟨ha.invoked.1, ?_⟩
    intro report hr
    cases os with
    | ok os => exact ha.invoked.2 os rfl
    | error f => cases hr

/-- The abort law of dispatching into the store, whatever the extractors do and whichever writes the
database refuses. The deeds take a course; the rows added are the writes among them, as they were made; a
refused write is a fault of the store; a fault that leaves cuts the course short where it arose; and no
extractor is set to work whose start is not in the store. -/
theorem dispatch_store_course (registry : Registry) (b : Blob) (path : FilePath) (p : Params) (s : Store)
    (w : Outside) :
    let candidates := registry.candidates b.mimeType b.size
    let final := (dispatch Store.log registry b path p).run (s, w)
    ∃ ds rows, Performed Store.log b path p ds (s, w) final.2 ∧ Course b p candidates ds final.1 ∧
      final.2.1.events = s.events ++ rows ∧ rows.map EventRow.written = ds.filterMap Deed.stored? ∧
      final.2.1.sightings = s.sightings ∧
      (∀ e f, .refused e f ∈ ds → f.kind = .storageWrite) ∧
      (∀ f, final.1 = .error f → CutShort b p ds f) ∧
      ds.IsChain (StartsFirst b p) ∧ (∀ d ∈ ds.head?, d.invoked? = none) ∧
      ds.filterMap Deed.invoked? <+: candidates ∧
      (∀ report, final.1 = .ok report → ds.filterMap Deed.invoked? = candidates) := by
  obtain ⟨ds, hp, hc⟩ := dispatch_course Store.log registry b path p (s, w)
  obtain ⟨hs, rows, he, hr⟩ := hp.rows hc.fresh
  refine ⟨ds, rows, hp, hc, he, hr, hs, hp.refused_kind hc.fresh, ?_, hc.startsFirst.1,
    hc.startsFirst.2, hc.invoked.1, hc.invoked.2⟩
  intro f hf
  rw [hf] at hc
  exact hc.cutShort

end Intake.Dispatch
