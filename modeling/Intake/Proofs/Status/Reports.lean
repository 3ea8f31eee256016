import Intake.Proofs.Extractor.Registry
import Intake.Proofs.Status.Locality
import Intake.Proofs.Status.News
import Mathlib.Data.List.Basic

/-!
# Statuses tell what was reported

After dispatches into an empty store, the status of a blob in an ingestion says of every extractor what the
reports about that blob in that ingestion said, in the order of the dispatches.
-/
namespace Intake

/-- The states that an extractor went through according to a report. -/
def Report.statesOf (r : Report) (name : String) : List ExtractorState :=
  if name ∈ r.succeeded then [.started, .success]
  else if name ∈ r.failed.map Prod.fst then [.started, .failure]
  else if name ∈ r.interrupted then [.started]
  else []

/-- The messages and stack traces of the failures of a report. -/
def Report.failures (r : Report) : List (String × Option String) :=
  r.failed.map fun f => (f.2.message, f.2.stackTrace)

namespace Dispatch

theorem failures_reported (b : Blob) (p : Params) (names : List String) (os : Outcomes) :
    (newsOf b p os).flatMap News.failures = (reported (.start b.id names) os).failures := by
  rw [reported_eq]
  show (os.flatMap attemptNews).flatMap News.failures = ([] ++ os.filterMap failed?).map _
  rw [List.nil_append]
  induction os with
  | nil => rfl
  | cons o os ih =>
    obtain ⟨x, o⟩ := o
    rw [List.flatMap_cons, List.flatMap_append, ih]
    cases o <;> rfl

theorem declared_newsOf (b : Blob) (p : Params) (os : Outcomes) :
    (newsOf b p os).flatMap News.declared = os.map fun o => o.1.name := by
  have h : (os.flatMap attemptNews).flatMap News.declared = [] := by
    simp only [List.flatMap_eq_nil_iff, List.mem_flatMap]
    rintro n ⟨⟨x, o⟩, -, hn⟩
    rcases List.mem_cons.mp hn with rfl | hn
    · rfl
    · cases o with
      | success v => rw [List.mem_singleton.mp hn]; rfl
      | interrupted reason => cases hn
      | failed f => rw [List.mem_singleton.mp hn]; rfl
  rw [newsOf, List.flatMap_cons, h, List.append_nil]
  rfl

def statesAfter : Outcome Value → List ExtractorState
  | .success _ => [.started, .success]
  | .interrupted _ => [.started]
  | .failed _ => [.started, .failure]

theorem states_of_attempt (name : String) (x : Extractor) (o : Outcome Value) :
    (attemptNews (x, o)).filterMap (News.state? name) = if x.name = name then statesAfter o else [] := by
  by_cases h : x.name = name
  · have hs (s : ExtractorState) : ExtractorState.ofName s.name = s := s.ofName_name
    cases o <;> simp [attemptNews, closingNews, News.state?, h, statesAfter]
    · exact ⟨hs .started, hs .success⟩
    · exact hs .started
    · exact ⟨hs .started, hs .failure⟩
  · cases o <;> simp [attemptNews, closingNews, News.state?, h]

theorem states_of_other {name : String} {os : Outcomes} (h : name ∉ os.map fun o => o.1.name) :
    (os.flatMap attemptNews).filterMap (News.state? name) = [] := by
  rw [List.filterMap_flatMap, List.flatMap_eq_nil_iff]
  rintro ⟨x, o⟩ ho
  rw [states_of_attempt, if_neg]
  exact fun hx => h (hx ▸ List.mem_map_of_mem ho)

theorem states_reported {os : Outcomes} (h : (os.map fun o => o.1.name).Nodup) (b : Blob) (p : Params)
    (names : List String) (name : String) :
    (newsOf b p os).filterMap (News.state? name) = (reported (.start b.id names) os).statesOf name := by
  rw [reported_eq]
  show (os.flatMap attemptNews).filterMap (News.state? name) = if name ∈ os.filterMap succeeded? then _
    else if name ∈ (os.filterMap failed?).map Prod.fst then _
    else if name ∈ os.filterMap interrupted? then _ else _
  induction os with
  | nil => rfl
  | cons o os ih =>
    obtain ⟨x, o⟩ := o
    rw [List.map_cons, List.nodup_cons] at h
    rw [List.flatMap_cons, List.filterMap_append, states_of_attempt]
    by_cases hx : x.name = name
    · -- No later candidate has the name, so the rest neither tells nor reports anything of it.
      have hn : name ∉ os.map fun o => o.1.name := hx ▸ h.1
      have hs : name ∉ os.filterMap succeeded? := fun hm => hn (ended_of_mem (.inl hm))
      have hf : name ∉ (os.filterMap failed?).map Prod.fst := fun hm => hn (ended_of_mem (.inr (.inl hm)))
      rw [states_of_other hn, if_pos hx, List.append_nil]
      cases o with
      | success v =>
        show _ = if name ∈ x.name :: os.filterMap succeeded? then _ else _
        rw [if_pos (hx ▸ List.mem_cons_self), statesAfter]
      | interrupted reason =>
        show _ = if name ∈ os.filterMap succeeded? then _
          else if name ∈ (os.filterMap failed?).map Prod.fst then _
          else if name ∈ x.name :: os.filterMap interrupted? then _ else _
        rw [if_neg hs, if_neg hf, if_pos (hx ▸ List.mem_cons_self), statesAfter]
      | failed f =>
        show _ = if name ∈ os.filterMap succeeded? then _
          else if name ∈ x.name :: (os.filterMap failed?).map Prod.fst then _ else _
        rw [if_neg hs, if_pos (hx ▸ List.mem_cons_self), statesAfter]
    · have hc (l : List String) : name ∈ x.name :: l ↔ name ∈ l :=
        List.mem_cons.trans (or_iff_right (Ne.symm hx))
      rw [ih h.2, if_neg hx, List.nil_append]
      cases o with
      | success v =>
        show _ = if name ∈ x.name :: os.filterMap succeeded? then _ else _
        simp only [hc]
        rfl
      | interrupted reason =>
        show _ = if name ∈ os.filterMap succeeded? then _
          else if name ∈ (os.filterMap failed?).map Prod.fst then _
          else if name ∈ x.name :: os.filterMap interrupted? then _ else _
        simp only [hc]
      | failed f =>
        show _ = if name ∈ os.filterMap succeeded? then _
          else if name ∈ x.name :: (os.filterMap failed?).map Prod.fst then _ else _
        simp only [hc]
        rfl

end Dispatch

theorem ExtractorHistory.some_current {x : ExtractorHistory} (h : x.updates ≠ []) :
    some x.current = (x.updates.map StatusUpdate.state).getLast? := by
  rw [current, List.getLast?_map, List.getLast?_eq_some_getLast h]
  rfl

namespace Request

abbrev Done : Type := Request × Dispatch.Outcomes

theorem key_of_told {q : Request} {os : Dispatch.Outcomes} :
    ∀ e ∈ q.told os, e.key = (some q.key.1, some q.key.2) := by
  intro e he
  obtain ⟨n, -, rfl⟩ := List.mem_map.mp he
  cases n <;> rfl

def newsFor (b i : String) (ds : List Done) : List News :=
  (ds.filter fun d => d.1.key == (b, i)).flatMap fun d => Dispatch.newsOf d.1.blob d.1.params d.2

theorem filter_told (b i : String) (ds : List Done) :
    (ds.flatMap fun d => d.1.told d.2).filter (fun e => e.key == (some b, some i)) =
      (newsFor b i ds).map (News.event b i) := by
  induction ds with
  | nil => rfl
  | cons d ds ih =>
    rw [List.flatMap_cons, List.filter_append, ih, newsFor, newsFor]
    by_cases hd : d.1.key = (b, i)
    · rw [List.filter_cons_of_pos (by simpa using hd), List.flatMap_cons, List.map_append,
        List.filter_eq_self.mpr]
      · obtain ⟨hb, hi⟩ := Prod.mk.inj hd
        rw [told, ← hb, ← hi]
      · intro e he
        rw [key_of_told e he, hd]
        exact beq_self_eq_true _
    · rw [List.filter_cons_of_neg (by simpa using hd), List.filter_eq_nil_iff.mpr, List.nil_append]
      intro e he
      rw [key_of_told e he]
      simpa [Prod.ext_iff] using hd

/-- What a chronological store that holds the news of dispatches gives out of one blob. -/
theorem exists_newsFor {s : Store} (hc : s.Chronological) {ds : List Done}
    (h : s.events.map EventRow.written = ds.flatMap fun d => d.1.told d.2) (b i : String) :
    ∃ zs : List (News × EventRow), zs.map Prod.fst = newsFor b i ds ∧
      (s.eventsIn (.exactly i)).filter (fun e => e.key == (some b, some i)) = zs.map (News.stamped b i) := by
  have hw : (s.events.filter fun r => r.blobId == b && r.ingestId == i).map EventRow.written =
      (newsFor b i ds).map (News.event b i) := by
    rw [← filter_told, ← h, List.filter_map]
    rfl
  obtain ⟨zs, hz, ht⟩ := Status.exists_stamped hw
  refine ⟨zs, hz, ?_⟩
  rw [← ht, hc.eventsIn, List.filter_map, List.filter_filter]
  refine congrArg _ (List.filter_congr fun r _ => ?_)
  show ((r.blobId == b && r.ingestId == i) && i == r.ingestId) = (r.blobId == b && r.ingestId == i)
  by_cases hi : r.ingestId = i
  · simp [hi]
  · simp [hi]

theorem exists_summaryOf {s : Store} (hc : s.Chronological) {ds : List Done}
    (h : s.events.map EventRow.written = ds.flatMap fun d => d.1.told d.2) {i : String}
    (rs : List Sighting) (threshold : Int) :
    ∀ key ∈ Status.keysOf (s.eventsIn (.exactly i)),
      ∃ t, Status.summaryOf (s.eventsIn (.exactly i)) rs threshold key = .ok t := by
  intro key hk
  obtain ⟨e, he, rfl⟩ := List.mem_map.mp (List.mem_eraseDups.mp hk)
  rw [hc.eventsIn] at he
  obtain ⟨r, hr, rfl⟩ := List.mem_map.mp he
  have hi : r.ingestId = i := (eq_of_beq (List.mem_filter.mp hr).2).symm
  obtain ⟨zs, -, hz⟩ := exists_newsFor hc h r.blobId i
  have hkey : r.toEvent.key = (some r.blobId, some i) := hi ▸ rfl
  rw [hkey, Status.mem_keysOf_iff, hz, Ne, List.map_eq_nil_iff] at hk
  obtain ⟨t, ht, -⟩ := Status.summary_stamped (b := r.blobId) (i := i) hk
    (rs.filter fun x => x.key == (some r.blobId, some i))
    (Status.isStuck (s.eventsIn (.exactly i)) threshold (some r.blobId))
  exact ⟨t, by rw [hkey, Status.summaryOf, hz, ht]⟩

/-- The dispatches of a blob in an ingestion, each with its report. -/
def past (b i : String) (qs : List Request) (rs : List Report) : List (Request × Report) :=
  (qs.zip rs).filter fun d => d.1.key == (b, i)

theorem isStuck_eq_false {s : Store} (hc : s.Chronological) {b i : String} {threshold : Int}
    (h : ((s.events.countP fun r => r.blobId == b && r.ingestId == i : Nat) : Int) ≤ threshold) :
    Status.isStuck (s.eventsIn (.exactly i)) threshold (some b) = false := by
  have hn : (s.eventsIn (.exactly i)).countP (fun e => e.blobId == some b) =
      s.events.countP fun r => r.blobId == b && r.ingestId == i := by
    rw [hc.eventsIn, List.countP_map, List.countP_filter]
    apply List.countP_congr
    intro r _
    show (r.blobId == b && i == r.ingestId) = true ↔ _
    rw [BEq.comm (a := i)]
  rw [Status.isStuck, hn, decide_eq_false_iff_not]
  exact Int.not_lt.mpr h

abbrev pastOf (b i : String) (ds : List Done) : List (Request × Report) :=
  past b i (ds.map Prod.fst) (ds.map fun d => d.1.report d.2)

theorem mem_pastOf {b i : String} {ds : List Done} {d : Request × Report} (h : d ∈ pastOf b i ds) :
    ∃ d' ∈ ds, d = (d'.1, d'.1.report d'.2) := by
  rw [pastOf, past, List.zip_map'] at h
  obtain ⟨d', hd, rfl⟩ := List.mem_map.mp (List.mem_filter.mp h).1
  exact ⟨d', hd, rfl⟩

theorem flatMap_newsFor {α : Type} {f : News → List α} {g : Request × Report → List α} {b i : String}
    {ds : List Done}
    (h : ∀ d ∈ ds, (Dispatch.newsOf d.1.blob d.1.params d.2).flatMap f = g (d.1, d.1.report d.2)) :
    (newsFor b i ds).flatMap f = (pastOf b i ds).flatMap g := by
  rw [newsFor, pastOf, past, List.zip_map', List.filter_map, List.flatMap_map, List.flatMap_assoc]
  apply List.flatMap_congr
  intro d hd
  exact h d (List.mem_filter.mp hd).1

theorem newsFor_ne_nil {b i : String} {ds : List Done} (h : ∃ d ∈ ds, d.1.key = (b, i)) :
    newsFor b i ds ≠ [] := by
  obtain ⟨d, hd, hk⟩ := h
  intro hn
  have hm : d ∈ ds.filter fun d => d.1.key == (b, i) := List.mem_filter.mpr ⟨hd, beq_iff_eq.mpr hk⟩
  exact List.cons_ne_nil _ _ (List.flatMap_eq_nil_iff.mp hn d hm)

theorem states_of_done {d : Done} (h : d.2.map Prod.fst = d.1.candidates) (name : String) :
    (Dispatch.newsOf d.1.blob d.1.params d.2).filterMap (News.state? name) =
      (d.1.report d.2).statesOf name := by
  have hn : (d.1.candidates.map Extractor.name).Nodup := d.1.registry.nodup_candidates ..
  rw [← h, List.map_map] at hn
  exact Dispatch.states_reported hn _ _ _ _

theorem states_ne_nil {d : Done} (h : d.2.map Prod.fst = d.1.candidates) {name : String}
    (hn : name ∈ d.1.candidates.map Extractor.name) : (d.1.report d.2).statesOf name ≠ [] := by
  rw [← h, List.map_map] at hn
  obtain ⟨o, ho, rfl⟩ := List.mem_map.mp hn
  rw [← states_of_done h]
  have hm := Dispatch.mem_newsOf_of_started ho d.1.blob d.1.params
  exact List.ne_nil_of_mem (List.mem_filterMap.mpr ⟨_, hm, if_pos rfl⟩)

section

variable {b i : String} {ds : List Done} (hx : ∀ d ∈ ds, d.2.map Prod.fst = d.1.candidates)
include hx

theorem declared_newsFor :
    (newsFor b i ds).flatMap News.declared =
      (pastOf b i ds).flatMap fun d => d.1.candidates.map Extractor.name := by
  apply flatMap_newsFor
  intro d hd
  rw [Dispatch.declared_newsOf, ← hx d hd, List.map_map]
  rfl

theorem states_newsFor (name : String) :
    (newsFor b i ds).filterMap (News.state? name) =
      (pastOf b i ds).flatMap fun d => d.2.statesOf name := by
  rw [List.filterMap_eq_flatMap_toList]
  apply flatMap_newsFor
  intro d hd
  rw [← List.filterMap_eq_flatMap_toList]
  exact states_of_done (hx d hd) name

/-- The histories that the news amounts to are what the reports tell. -/
theorem history_told {zs : List (News × EventRow)} (hz : zs.map Prod.fst = newsFor b i ds) :
    ∀ x ∈ Status.historiesFrom zs, ∃ name, x.extractor = .text name ∧
      x.updates.map StatusUpdate.state = (pastOf b i ds).flatMap (fun d => d.2.statesOf name) ∧
      some x.current = ((pastOf b i ds).filterMap fun d => (d.2.statesOf name).getLast?).getLast? := by
  intro x hm
  obtain ⟨name, hname, rfl⟩ := List.mem_map.mp hm
  have hs : (Status.updatesFor name zs).map StatusUpdate.state =
      (pastOf b i ds).flatMap fun d => d.2.statesOf name := by
    rw [Status.map_state_updatesFor, hz, states_newsFor hx]
  -- A name is listed because a dispatch declared it, and that dispatch started it.
  have hne : Status.updatesFor name zs ≠ [] := by
    intro hnil
    rw [hnil, List.map_nil, List.nil_eq, List.flatMap_eq_nil_iff] at hs
    rw [List.mem_eraseDups, ← List.flatMap_map Prod.fst News.declared, hz, declared_newsFor hx] at hname
    obtain ⟨d, hd, hc⟩ := List.mem_flatMap.mp hname
    obtain ⟨d', hd', rfl⟩ := mem_pastOf hd
    exact states_ne_nil (hx d' hd') hc (hs _ hd)
  rw [if_neg (by simpa using hne)]
  refine ⟨name, rfl, hs, ?_⟩
  rw [ExtractorHistory.some_current hne, hs, List.getLast?_flatMap, List.getLast?_filterMap]

end

end Request

open Request in
/-- The read side tells what the write side did. Dispatches that all end with a report, into an empty store
whose clock does not go back, leave of every blob that was dispatched in an ingestion exactly one entry, if
it has no more events there than the threshold. The entry names the candidates of its dispatches, each once
and in the order in which they were first declared; the states of each are those that the reports tell, one
dispatch after another, and the current one is the last of the last dispatch that ran it; and its errors are
the failures that were reported, each once. -/
theorem statuses_tell_reports {clock : Clock} (hclock : ∀ n, clock n ≤ clock (n + 1))
    {qs : List Request} {rs : List Report} {s : Store}
    (h : (runAll qs).run (.empty clock) = (.ok rs, s)) {b i : String} (hq : ∃ q ∈ qs, q.key = (b, i))
    {threshold : Int}
    (hn : ((s.events.countP fun r => r.blobId == b && r.ingestId == i : Nat) : Int) ≤ threshold) :
    ∃ answer t, ((Store.log.statuses (.exactly i) threshold).run s).1 = .ok answer ∧
      (answer.filter fun t => (t.blobId, t.ingestId) == (some b, some i)) = [t] ∧
      t.extractors.map ExtractorHistory.extractor =
        ((past b i qs rs).flatMap fun d => d.1.candidates.map Extractor.name).eraseDups.map .text ∧
      (∀ x ∈ t.extractors, ∃ name, x.extractor = .text name ∧
        x.updates.map StatusUpdate.state = (past b i qs rs).flatMap (fun d => d.2.statesOf name) ∧
        some x.current = ((past b i qs rs).filterMap fun d => (d.2.statesOf name).getLast?).getLast?) ∧
      t.errors = ((past b i qs rs).flatMap fun d => d.2.failures).eraseDups.map .ofPair := by
  obtain ⟨ds, rfl, rfl, hx, he, -, hc, hd⟩ := runAll_told h (Store.chronological_empty hclock)
  rw [show (Store.empty clock).events.map EventRow.written = [] from rfl, List.nil_append] at he
  obtain ⟨zs, hz, hes⟩ := exists_newsFor hc he b i
  have hne : zs ≠ [] := by
    have hm : ∃ d ∈ ds, d.1.key = (b, i) := by simpa using hq
    intro hnil
    rw [hnil] at hz
    exact newsFor_ne_nil hm hz.symm
  obtain ⟨t, ht, htt⟩ := Status.summary_stamped (b := b) (i := i) hne
    ((s.sightingsIn (.exactly i)).filter fun x => x.key == (some b, some i))
    (Status.isStuck (s.eventsIn (.exactly i)) threshold (some b))
  obtain ⟨htx, hte⟩ := htt (isStuck_eq_false hc hn)
  have hk : (some b, some i) ∈ Status.keysOf (s.eventsIn (.exactly i)) := by
    rw [Status.mem_keysOf_iff, hes, Ne, List.map_eq_nil_iff]
    exact hne
  have hsum : Status.summaryOf (s.eventsIn (.exactly i)) (s.sightingsIn (.exactly i)) threshold
      (some b, some i) = .ok t := by
    rw [Status.summaryOf, hes, ht]
  obtain ⟨answer, ha, hf⟩ := Status.reconstruct_entry (s.stored_eventsIn _) (s.stored_sightingsIn _)
    (exists_summaryOf hc he (s.sightingsIn (.exactly i)) threshold) hk hsum
  refine ⟨answer, t, ?_, hf, ?_, ?_, ?_⟩
  · rw [Store.run_statuses hd]
    exact ha
  · rw [htx, Status.historiesFrom, List.map_map, ← declared_newsFor hx, ← hz, List.flatMap_map]
    rfl
  · rw [htx]
    exact history_told hx hz
  · rw [hte, ← flatMap_newsFor fun d _ => Dispatch.failures_reported .., ← hz, List.flatMap_map]

open Request in
theorem statuses_tell_reports_of_retry :
    let x := Extractor.elsewhere "x" ["t"] 0 0 0
    let q (o : Outcome Value) : Request :=
      ⟨⟨[x], by simp⟩, ⟨"b", "t", 1, by decide⟩, .ofString "/f", ⟨"i", [], none, none⟩,
        { Outside.calm with results := [("x", [.ok o])] }⟩
    let f : Failure := ⟨.other, "", none⟩
    ∃ s, (runAll [q (.failed f), q (.success .null)]).run (.empty (.still 0)) =
        (.ok [⟨"b", ["x"], [], [("x", f)], []⟩, ⟨"b", ["x"], ["x"], [], []⟩], s) ∧
      ∃ answer t, ((Store.log.statuses (.exactly "i") 100).run s).1 = .ok answer ∧
        (answer.filter fun t => (t.blobId, t.ingestId) == (some "b", some "i")) = [t] ∧
        t.errors = [⟨"other", .null⟩] := by
  intro x q f
  have hc (h : ([x].map Extractor.name).Nodup) : Registry.candidates ⟨[x], h⟩ "t" (1 : Nat) = [x] :=
    List.mergeSort_singleton x
  obtain ⟨s, h, hn⟩ : ∃ s, (runAll [q (.failed f), q (.success .null)]).run (.empty (.still 0)) =
        (.ok [⟨"b", ["x"], [], [("x", f)], []⟩, ⟨"b", ["x"], ["x"], [], []⟩], s) ∧
      ((s.events.countP fun r => r.blobId == "b" && r.ingestId == "i" : Nat) : Int) ≤ 100 := by
    simp only [q, runAll, Request.run, dispatch, hc]
    exact ⟨_, rfl, by decide⟩
  obtain ⟨answer, t, ha, hf, -, -, he⟩ :=
    statuses_tell_reports (fun _ => Nat.le_refl 0) h ⟨q (.failed f), List.mem_cons_self, rfl⟩ hn
  exact ⟨s, h, answer, t, ha, hf, he⟩

end Intake
