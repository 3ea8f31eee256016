import Intake.Proofs.Dispatch.Abort
import Intake.Proofs.Dispatch.Report
import Intake.Proofs.EventLog.Chronology

/-!
# What dispatches leave in the store

A dispatch that ends with a report leaves news of what was found and of what each candidate went through.
A run of such dispatches leaves the news of all of them, in order.
-/
namespace Intake

/-- What one event of a dispatch tells. -/
inductive News where
  | detected (mimeType : String) (extractors : List String) (workspace : Option String)
  | ran (extractor : String) (s : EventStatus) (failure : Option Failure)

def News.event (b i : String) : News → Event
  | detected mimeType extractors workspace =>
    .mimeTypeDetected (some b) (some i) mimeType (extractors.map .text) workspace
  | ran extractor s failure =>
    .runExtractor (some b) (some i) extractor s (failure.map Dispatch.errorOf).toList

namespace Dispatch

variable {b : Blob} {path : FilePath} {p : Params} {x : Extractor}

def closingNews (name : String) : Outcome Value → List News
  | .success _ => [.ran name .success none]
  | .interrupted _ => []
  | .failed f => [.ran name .failure (some f)]

def attemptNews (o : Extractor × Outcome Value) : List News :=
  .ran o.1.name .started none :: closingNews o.1.name o.2

def newsOf (b : Blob) (p : Params) (os : Outcomes) : List News :=
  .detected b.mimeType (os.map fun o => o.1.name) p.workspace :: os.flatMap attemptNews

theorem mem_newsOf_of_started {o : Extractor × Outcome Value} {os : Outcomes} (h : o ∈ os) (b : Blob)
    (p : Params) : News.ran o.1.name .started none ∈ newsOf b p os :=
  List.mem_cons_of_mem _ (List.mem_flatMap.mpr ⟨o, h, List.mem_cons_self⟩)

theorem closing?_toList (name : String) (o : Outcome Value) :
    (closing? b p name o).toList = (closingNews name o).map (News.event b.id p.ingestId) := by
  cases o <;> rfl

theorem Attempt.news {ds : List Deed} {o : Outcome Value} (h : Attempt b p x ds (.ok o)) :
    ds.filterMap Deed.stored? = (attemptNews (x, o)).map (News.event b.id p.ingestId) := by
  cases h with
  | interrupted reason => rfl
  | closed h hc =>
    rw [attemptNews, List.map_cons, ← closing?_toList, hc]
    rfl

theorem Attempts.news {xs : List Extractor} {ds : List Deed} {os : Outcomes}
    (h : Attempts b p xs ds (.ok os)) :
    os.map Prod.fst = xs ∧
      ds.filterMap Deed.stored? = (os.flatMap attemptNews).map (News.event b.id p.ingestId) := by
  generalize hr : (Except.ok os : Except Fault Outcomes) = r at h
  induction h generalizing os with
  | nil =>
    cases hr
    exact ⟨rfl, rfl⟩
  | @next x xs ds ds' o r ha _ ih =>
    cases r with
    | error f => cases hr
    | ok os' =>
      cases hr
      obtain ⟨hx, hd⟩ := ih rfl
      refine ⟨by rw [List.map_cons, hx], ?_⟩
      rw [List.filterMap_append, ha.news, hd, List.flatMap_cons, List.map_append]
  | stop => cases hr

theorem Course.news {xs : List Extractor} {ds : List Deed} {report : Report}
    (h : Course b p xs ds (.ok report)) :
    ∃ os : Outcomes, os.map Prod.fst = xs ∧ report = reported (.start b.id (xs.map Extractor.name)) os ∧
      ds.filterMap Deed.stored? = (newsOf b p os).map (News.event b.id p.ingestId) := by
  generalize hr : (Except.ok report : Except Fault Report) = r at h
  cases h with
  | undetected f => cases hr
  | @detected ds r ha =>
    cases r with
    | error f => cases hr
    | ok os =>
      cases hr
      obtain ⟨hx, hd⟩ := ha.news
      refine ⟨os, hx, rfl, ?_⟩
      rw [newsOf, List.map_cons, ← hd, ← hx, List.map_map]
      rfl

theorem Performed.chronological {ds : List Deed} {st st' : Store × Outside}
    (h : Performed Store.log b path p ds st st') (hf : Deed.Fresh ds) (hc : st.1.Chronological) :
    st'.1.Chronological ∧ st'.1.disturbances.query = st.1.disturbances.query := by
  induction h with
  | nil st => exact ⟨hc, rfl⟩
  | @cons d ds st st₁ st₂ hd _ ih =>
    obtain ⟨s, w⟩ := st
    obtain ⟨s₁, w₁⟩ := st₁
    cases d with
    | stored e =>
      obtain ⟨hc', hq⟩ := ih hf.of_cons (hc.insertEvent hf.of_stored hd.1)
      obtain ⟨r, -, -, -, rfl⟩ := Store.insertEvent_fresh_ok hf.of_stored hd.1
      exact ⟨hc', hq⟩
    | refused e f =>
      obtain ⟨⟨_, rfl, hq⟩, -⟩ := Store.insertEvent_error hd.1
      obtain ⟨hc', hq'⟩ := ih hf.of_cons ⟨hc.rows, hc.past, hc.clock⟩
      exact ⟨hc', hq'.trans hq⟩
    | ended x r =>
      obtain ⟨-, rfl⟩ := hd
      exact ih hf.of_cons hc

end Dispatch

/-- A blob to dispatch, with all that the dispatch meets. -/
structure Request where
  registry : Registry
  blob : Blob
  file : FilePath
  params : Params
  outside : Outside

namespace Request

def candidates (q : Request) : List Extractor := q.registry.candidates q.blob.mimeType q.blob.size

def key (q : Request) : String × String := (q.blob.id, q.params.ingestId)

def run (q : Request) : Action Store Report :=
  .lend q.outside (dispatch Store.log q.registry q.blob q.file q.params)

def runAll : List Request → Action Store (List Report)
  | [] => pure []
  | q :: qs => do
    let r ← q.run
    let rs ← runAll qs
    return r :: rs

def report (q : Request) (os : Dispatch.Outcomes) : Report :=
  Dispatch.reported (.start q.blob.id (q.candidates.map Extractor.name)) os

def told (q : Request) (os : Dispatch.Outcomes) : List Event :=
  (Dispatch.newsOf q.blob q.params os).map (News.event q.blob.id q.params.ingestId)

theorem run_told {q : Request} {s s' : Store} {r : Report} (h : q.run.run s = (.ok r, s')) :
    ∃ os, os.map Prod.fst = q.candidates ∧ r = q.report os ∧
      s'.events.map EventRow.written = s.events.map EventRow.written ++ q.told os ∧
      s'.sightings = s.sightings ∧
      (s.Chronological → s'.Chronological ∧ s'.disturbances.query = s.disturbances.query) := by
  rw [run, Action.run_lend] at h
  obtain ⟨hr, rfl⟩ := Prod.mk.inj h
  obtain ⟨ds, hp, hc⟩ := Dispatch.dispatch_course Store.log q.registry q.blob q.file q.params (s, q.outside)
  have hf := hc.fresh
  rw [hr] at hc
  obtain ⟨os, hx, rfl, hn⟩ := hc.news
  obtain ⟨hs, rows, he, hw⟩ := hp.rows hf
  refine ⟨os, hx, rfl, ?_, hs, hp.chronological hf⟩
  rw [he, List.map_append, hw, hn]
  rfl

/-- Dispatches that all end with a report leave what they tell, one after another. -/
theorem runAll_told {qs : List Request} {s s' : Store} {rs : List Report}
    (h : (runAll qs).run s = (.ok rs, s')) (hc : s.Chronological) :
    ∃ ds : List (Request × Dispatch.Outcomes), ds.map Prod.fst = qs ∧
      ds.map (fun d => d.1.report d.2) = rs ∧ (∀ d ∈ ds, d.2.map Prod.fst = d.1.candidates) ∧
      s'.events.map EventRow.written = s.events.map EventRow.written ++ ds.flatMap (fun d => d.1.told d.2) ∧
      s'.sightings = s.sightings ∧ s'.Chronological ∧ s'.disturbances.query = s.disturbances.query := by
  induction qs generalizing s rs with
  | nil =>
    cases h
    exact ⟨[], rfl, rfl, nofun, (List.append_nil _).symm, rfl, hc, rfl⟩
  | cons q qs ih =>
    obtain ⟨r, s₁, hr, h⟩ := Action.run_bind_eq_ok_iff.mp h
    obtain ⟨rs', s₂, hrs, h⟩ := Action.run_bind_eq_ok_iff.mp h
    cases h
    obtain ⟨os, hx, rfl, he, hs, hcq⟩ := run_told hr
    obtain ⟨hc₁, hq⟩ := hcq hc
    obtain ⟨ds, rfl, rfl, hxs, he', hs', hc', hq'⟩ := ih hrs hc₁
    refine ⟨(q, os) :: ds, rfl, rfl, ?_, ?_, hs'.trans hs, hc', hq'.trans hq⟩
    · exact List.forall_mem_cons.mpr ⟨hx, hxs⟩
    · rw [he', he, List.append_assoc, List.flatMap_cons]

end Request
end Intake
