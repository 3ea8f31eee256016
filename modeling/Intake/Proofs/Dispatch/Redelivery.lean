import Intake.Proofs.Dispatch.Session
import Intake.Proofs.Dispatch.Undisturbed
import Intake.Proofs.EventLog.Growth
import Intake.Proofs.Status.Reports
import Intake.Proofs.Status.Repetition

/-!
# Handling a task again

A task that is delivered more than once does no harm: every handling leaves the same news, so that the status
of the blob reads as after the first, but for the histories, which it has as many times over.
-/
namespace Intake

namespace Dispatch

variable {b : Blob} {path : FilePath} {p : Params}

theorem stored_deedsOf {as : List Trial} (ha : ∀ a ∈ as, a.Stays) :
    (deedsOf b p as).filterMap Deed.stored? =
      (newsOf b p (as.map Trial.outcome)).map (News.event b.id p.ingestId) := by
  have hnames : (as.map Trial.outcome).map (fun o => o.1.name) = as.map fun a => a.1.name := by
    rw [List.map_map]
    exact List.map_congr_left fun a _ => congrArg Extractor.name a.outcome_fst
  have hstored := (attempts_deeds (b := b) (p := p) ha).news.2
  rw [newsOf, List.map_cons, ← hstored, hnames]
  rfl

theorem covers_newsOf (b : Blob) (p : Params) (os : Outcomes) : Status.Covers (newsOf b p os) := by
  intro name hname
  rw [declared_newsOf] at hname
  obtain ⟨o, ho, rfl⟩ := List.mem_map.mp hname
  have hm := mem_newsOf_of_started ho b p
  exact List.ne_nil_of_mem (List.mem_filterMap.mpr ⟨_, hm, if_pos rfl⟩)

end Dispatch

namespace Store

namespace GainedOf

variable {b i : String} {s₀ s : Store} {rows : List EventRow} {xs : List SightingRow} {scope : Scope}
  {threshold : Int}

/-- Other blobs fare as before. -/
theorem summaryOf_other (h : GainedOf b i s₀ rows xs s) {key : Option String × Option String}
    (hk : key.1 ≠ some b) :
    Status.summaryOf (s.eventsIn scope) (s.sightingsIn scope) threshold key =
      Status.summaryOf (s₀.eventsIn scope) (s₀.sightingsIn scope) threshold key := by
  rw [← Status.summaryOf_without hk, h.eventsIn_other, h.sightingsIn_other]

theorem keysOf_other (h : GainedOf b i s₀ rows xs s) (scope : Scope) :
    Status.keysOf (s₀.eventsIn scope) =
      (Status.keysOf (s.eventsIn scope)).filter fun key => key.1 != some b := by
  rw [← h.eventsIn_other scope]
  exact Status.keysOf_filter (s.eventsIn scope) fun key => key.1 != some b

theorem key_of_blob (h : GainedOf b i s₀ rows xs s) {key : Option String × Option String}
    (hk : key ∈ Status.keysOf (s.eventsIn scope)) (hb : key.1 = some b) : key = (some b, some i) := by
  obtain ⟨e, he, rfl⟩ := List.mem_map.mp (List.mem_eraseDups.mp hk)
  obtain ⟨r, hr, -, rfl⟩ := mem_eventsIn_iff.mp he
  have hrb : r.blobId = b := Option.some.inj hb
  rw [h.events] at hr
  rcases List.mem_append.mp hr with hr | hr
  · exact absurd hrb (h.lacks.events r hr)
  · show (some r.blobId, some r.ingestId) = _
    rw [(h.rows_own r hr).1, (h.rows_own r hr).2]

theorem reconstruct_iff (h : GainedOf b i s₀ rows xs s)
    (hown : ∃ st, Status.summaryOf (s.eventsIn scope) (s.sightingsIn scope) threshold (some b, some i) =
      .ok st) :
    (∃ answer, Status.reconstruct (s.eventsIn scope) (s.sightingsIn scope) threshold = .ok answer) ↔
      ∃ answer, Status.reconstruct (s₀.eventsIn scope) (s₀.sightingsIn scope) threshold = .ok answer := by
  rw [Status.exists_reconstruct_iff (s.stored_eventsIn scope) (s.stored_sightingsIn scope),
    Status.exists_reconstruct_iff (s₀.stored_eventsIn scope) (s₀.stored_sightingsIn scope)]
  constructor
  · intro hall key hk
    rw [h.keysOf_other] at hk
    obtain ⟨hk, hb⟩ := List.mem_filter.mp hk
    rw [← h.summaryOf_other (bne_iff_ne.mp hb)]
    exact hall key hk
  · intro hall key hk
    by_cases hb : key.1 = some b
    · rw [h.key_of_blob hk hb]
      exact hown
    · rw [h.summaryOf_other hb]
      apply hall
      rw [h.keysOf_other]
      exact List.mem_filter.mpr ⟨hk, bne_iff_ne.mpr hb⟩

end GainedOf

variable {s₀ s : Store} {rows : List EventRow} {xs : List SightingRow}

theorem Gained.performed {b : Blob} {path : FilePath} {p : Params} {ds : List Dispatch.Deed}
    {st st' : Store × Outside} (h : Dispatch.Performed log b path p ds st st') (hf : Dispatch.Deed.Fresh ds)
    (hg : Gained s₀ rows xs st.1) :
    ∃ rows', rows'.map EventRow.written = ds.filterMap Dispatch.Deed.stored? ∧
      Gained s₀ (rows ++ rows') xs st'.1 := by
  induction h generalizing rows with
  | nil st => exact ⟨[], rfl, by rwa [List.append_nil]⟩
  | @cons d ds st st₁ st₂ hd _ ih =>
    obtain ⟨s, w⟩ := st
    obtain ⟨s₁, w₁⟩ := st₁
    cases d with
    | stored e =>
      obtain ⟨r, hr, hg'⟩ := hg.insertEvent hf.of_stored hd.1
      obtain ⟨rows', hw, hg''⟩ := ih hf.of_cons hg'
      refine ⟨r :: rows', ?_, ?_⟩
      · rw [List.map_cons, hr, hw]
        rfl
      · rwa [List.append_assoc] at hg''
    | refused e f =>
      obtain ⟨s', hs, -⟩ := hg.writable.insertEvent_fresh hf.of_refused
      cases hs.symm.trans hd.1
    | ended x r =>
      obtain ⟨-, rfl⟩ := hd
      exact ih hf.of_cons hg

end Store

/-- The candidates for a task come back with given outcomes if they are set to work in an outside. -/
def Task.Yields (t : Task) (registry : Registry) (outcome : Extractor → Outcome Value) (w : Outside) : Prop :=
  let candidates := registry.candidates t.blob.mimeType t.blob.size
  (Dispatch.workAll t.blob t.file t.params candidates w).1 = candidates.map fun x => (x, .ok (outcome x))

/-- What one handling of a task leaves in the log. -/
def Task.news (t : Task) (registry : Registry) (outcome : Extractor → Outcome Value) : List News :=
  Dispatch.newsOf t.blob t.params
    ((registry.candidates t.blob.mimeType t.blob.size).map fun x => (x, outcome x))

/-- A worker is given a task. -/
def Task.errand (t : Task) (registry : Registry) (w : Outside) : Errand :=
  .handle ⟨registry, t.blob, t.file, t.params, w⟩ t.uploadPath

namespace Store

variable {s₀ s : Store} {rows : List EventRow} {xs : List SightingRow} {t : Task} {registry : Registry}
  {outcome : Extractor → Outcome Value} {w : Outside}

theorem Gained.dispatch (h : Gained s₀ rows xs s) (hy : t.Yields registry outcome w) :
    ∃ rows', rows'.map EventRow.written =
        (t.news registry outcome).map (News.event t.blob.id t.params.ingestId) ∧
      Gained s₀ (rows ++ rows') xs
        ((Intake.dispatch log registry t.blob t.file t.params).run (s, w)).2.1 := by
  have hstays : ∀ a ∈ (Dispatch.workAll t.blob t.file t.params
      (registry.candidates t.blob.mimeType t.blob.size) w).1, a.Stays := by
    rw [hy]
    intro a ha f hf
    obtain ⟨x, -, rfl⟩ := List.mem_map.mp ha
    cases hf
  obtain ⟨s', hp⟩ := Dispatch.exists_deeds t.blob t.file t.params
    (registry.candidates t.blob.mimeType t.blob.size) h.writable w
  obtain ⟨report, hc⟩ := Dispatch.course_deedsOf (b := t.blob) (p := t.params) hstays
  obtain ⟨rows', hw, hg⟩ := Gained.performed hp hc.fresh h
  refine ⟨rows', ?_, ?_⟩
  · rw [hw, Dispatch.stored_deedsOf hstays, hy, List.map_map]
    rfl
  · rw [Dispatch.run_dispatch_of_deeds hstays (Dispatch.workAll_fst _ _) hp]
    exact hg

/-- A store has become another by taking a task `k` times. -/
structure Handled (t : Task) (registry : Registry) (outcome : Extractor → Outcome Value) (k : Nat)
    (s₀ : Store) (rows : List EventRow) (xs : List SightingRow) (s : Store) : Prop
    extends Gained s₀ rows xs s where
  written : rows.map EventRow.written =
    (Lists.copies k (t.news registry outcome)).map (News.event t.blob.id t.params.ingestId)
  seen : ∀ x ∈ xs, x.blobId = t.blob.id ∧ x.ingestId = t.params.ingestId ∧ x.path = t.uploadPath ∧
    x.size = t.blob.size
  count : xs.length = k

theorem handled_zero (t : Task) (registry : Registry) (outcome : Extractor → Outcome Value)
    (hw : s.IsWritable) (hc : ∀ n, s.clock n ≤ s.clock (n + 1)) :
    Handled t registry outcome 0 s [] [] s :=
  ⟨gained_nil hw hc, rfl, nofun, rfl⟩

theorem IsWritable.insertSighting_of_fits (h : s.IsWritable) (hn : sizeInRange t.blob.size = true) :
    ∃ s', (insertSighting t.sighting).run s = (.ok (), s') := by
  have hr : sightingRowOf (nextId (s.sightings.map SightingRow.id)) (s.clock 0) t.sighting = .ok _ :=
    sightingRowOf_eq_ok_iff.mpr ⟨t.blob.id, t.params.ingestId, t.blob.size, t.uploadPath, rfl, rfl, rfl,
      rfl, hn, rfl⟩
  exact ⟨_, h.run_insertSighting hr⟩

namespace Handled

variable {k : Nat}

theorem errand (h : Handled t registry outcome k s₀ rows xs s) (hn : sizeInRange t.blob.size = true)
    (hy : t.Yields registry outcome w) :
    ∃ rows' x, Handled t registry outcome (k + 1) s₀ (rows ++ rows') (xs ++ [x])
      ((t.errand registry w).after s) := by
  obtain ⟨s₁, hs₁⟩ := h.writable.insertSighting_of_fits hn
  obtain ⟨x, hx, hseen⟩ := h.toGained.insertSighting hs₁
  obtain ⟨rows', hw, hgained⟩ := hseen.dispatch hy
  have hafter : (t.errand registry w).after s =
      ((Intake.dispatch log registry t.blob t.file t.params).run (s₁, w)).2.1 := by
    show ((handle log registry t).run (s, w)).2.1 = _
    rw [Dispatch.run_handle, log, hs₁]
  refine ⟨rows', x, hafter ▸ hgained, ?_, ?_, ?_⟩
  · rw [List.map_append, h.written, hw, ← List.map_append, Lists.copies_add, Lists.copies_one]
  · intro y hy
    rcases List.mem_append.mp hy with hy | hy
    · exact h.seen y hy
    · rw [List.mem_singleton.mp hy]
      have hblob : some t.blob.id = some x.blobId := hx.blob
      have hingest : some t.params.ingestId = some x.ingestId := hx.ingest
      have hpath : some t.uploadPath = some x.path := hx.path
      have hsize : some (t.blob.size : Int) = some x.size := hx.size
      exact ⟨(Option.some.inj hblob).symm, (Option.some.inj hingest).symm, (Option.some.inj hpath).symm,
        (Option.some.inj hsize).symm⟩
  · rw [List.length_append, h.count, List.length_singleton]

theorem errands (h : Handled t registry outcome k s₀ rows xs s) (hn : sizeInRange t.blob.size = true)
    {ws : List Outside} (hy : ∀ w ∈ ws, t.Yields registry outcome w) :
    ∃ rows' xs', Handled t registry outcome (k + ws.length) s₀ (rows ++ rows') (xs ++ xs')
      (Errand.afterAll (ws.map (t.errand registry)) s) := by
  induction ws generalizing k rows xs s with
  | nil =>
    refine ⟨[], [], ?_⟩
    rw [List.append_nil, List.append_nil]
    exact h
  | cons w ws ih =>
    obtain ⟨hfirst, hrest⟩ := List.forall_mem_cons.mp hy
    obtain ⟨rows₁, x, h₁⟩ := h.errand hn hfirst
    obtain ⟨rows₂, xs₂, h₂⟩ := ih h₁ hrest
    refine ⟨rows₁ ++ rows₂, [x] ++ xs₂, ?_⟩
    rw [List.append_assoc, List.append_assoc, Nat.add_assoc, Nat.add_comm 1] at h₂
    exact h₂

theorem gainedOf (h : Handled t registry outcome k s₀ rows xs s) (hl : s₀.Lacks t.blob.id) :
    GainedOf t.blob.id t.params.ingestId s₀ rows xs s where
  toGained := h.toGained
  lacks := hl
  rows_own r hr := by
    have hm : r.written ∈ rows.map EventRow.written := List.mem_map_of_mem hr
    rw [h.written] at hm
    obtain ⟨n, -, hn⟩ := List.mem_map.mp hm
    have hkey : (some t.blob.id, some t.params.ingestId) = (some r.blobId, some r.ingestId) := by
      have hk := congrArg Event.key hn
      cases n <;> exact hk
    exact ⟨(Option.some.inj (Prod.mk.inj hkey).1).symm, (Option.some.inj (Prod.mk.inj hkey).2).symm⟩
  seen_own x hx := ⟨(h.seen x hx).1, (h.seen x hx).2.1⟩

theorem exists_summary {r : EventRow} (h : Handled t registry outcome k s₀ (r :: rows) xs s)
    (hl : s₀.Lacks t.blob.id) (hk : 0 < k) {scope : Scope} (hi : inScope scope t.params.ingestId = true)
    {threshold : Int} (hn : ((r :: rows).length : Int) ≤ threshold) :
    ∃ st, Status.summaryOf (s.eventsIn scope) (s.sightingsIn scope) threshold
        (some t.blob.id, some t.params.ingestId) = .ok st ∧
      Status.Recounts t.blob.id t.params.ingestId (t.news registry outcome) k r.toEvent.moment
        (some t.uploadPath) (some t.blob.size) st := by
  have hg := h.gainedOf hl
  have hperm := hg.sightingsIn_own hi
  have hcount : xs ≠ [] := by
    rintro rfl
    have hzero : 0 = k := h.count
    omega
  have hne : (s.sightingsIn scope).filter
      (fun x => x.key == (some t.blob.id, some t.params.ingestId)) ≠ [] := by
    intro hnil
    rw [hnil, List.nil_perm, List.map_eq_nil_iff] at hperm
    exact hcount hperm
  have hplace : ∀ x ∈ (s.sightingsIn scope).filter
      (fun x => x.key == (some t.blob.id, some t.params.ingestId)),
      x.path = some t.uploadPath ∧ x.size = some (t.blob.size : Int) := by
    intro x hx
    obtain ⟨y, hy, rfl⟩ := List.mem_map.mp (hperm.mem_iff.mp hx)
    obtain ⟨-, -, hpath, hsize⟩ := h.seen y hy
    exact ⟨congrArg some hpath, congrArg some hsize⟩
  have htimes : ∀ q ∈ rows, r.time ≤ q.time := fun q hq => ((List.pairwise_cons.mp h.own.rows).1 q hq).1
  have hstuck : decide (threshold < ((r :: rows).length : Int)) = false :=
    decide_eq_false (Int.not_lt.mpr hn)
  rw [Status.summaryOf, hg.eventsIn_own hi, hg.isStuck_eq hi, hstuck]
  have hcovers : Status.Covers (t.news registry outcome) := Dispatch.covers_newsOf t.blob t.params _
  exact Status.exists_recounts hk hcovers h.written htimes hne hplace

/-- Whatever answer has the blob in it has one entry for it, which recounts the news. -/
theorem exists_entry {r : EventRow} (h : Handled t registry outcome k s₀ (r :: rows) xs s)
    (hl : s₀.Lacks t.blob.id) (hk : 0 < k) {scope : Scope} (hi : inScope scope t.params.ingestId = true)
    {threshold : Int} (hn : ((r :: rows).length : Int) ≤ threshold) :
    ((∃ answer, ((log.statuses scope threshold).run s).1 = .ok answer) ↔
        ∃ answer, ((log.statuses scope threshold).run s₀).1 = .ok answer) ∧
      ∃ st, Status.Recounts t.blob.id t.params.ingestId (t.news registry outcome) k r.toEvent.moment
          (some t.uploadPath) (some t.blob.size) st ∧
        ∀ answer, ((log.statuses scope threshold).run s).1 = .ok answer →
          (answer.filter fun st => (st.blobId, st.ingestId) == (some t.blob.id, some t.params.ingestId)) =
            [st] := by
  have hg := h.gainedOf hl
  obtain ⟨st, hsum, hst⟩ := h.exists_summary hl hk hi hn
  constructor
  · simp only [statuses_eq_ok_iff, h.query, exists_and_left]
    rw [hg.reconstruct_iff ⟨st, hsum⟩]
  · refine ⟨st, hst, ?_⟩
    intro answer ha
    obtain ⟨-, -, ha⟩ := statuses_eq_ok_iff.mp ha
    have hall := (Status.exists_reconstruct_iff (s.stored_eventsIn scope)
      (s.stored_sightingsIn scope)).mp ⟨answer, ha⟩
    have hkey : (some t.blob.id, some t.params.ingestId) ∈ Status.keysOf (s.eventsIn scope) := by
      rw [Status.mem_keysOf_iff, hg.eventsIn_own hi]
      exact List.cons_ne_nil _ _
    obtain ⟨answer', ha', hentry⟩ := Status.reconstruct_entry (s.stored_eventsIn scope)
      (s.stored_sightingsIn scope) hall hkey hsum
    obtain rfl := Except.ok.inj (ha.symm.trans ha')
    exact hentry

end Handled

/-- A task whose blob is too large leaves nothing, however often it is handled. -/
theorem tables_of_large (hn : sizeInRange t.blob.size = false) (w : Outside) (s : Store) :
    ((t.errand registry w).after s).tables = s.tables := by
  show ((handle log registry t).run (s, w)).2.1.tables = _
  rw [Dispatch.run_handle, log]
  cases hr : (insertSighting t.sighting).run s with
  | mk r s₁ =>
    cases r with
    | ok u =>
      obtain ⟨row, hrow, -⟩ := insertSighting_ok hr
      obtain ⟨b, i, n, path, -, -, hsize, -, hfits, -⟩ := sightingRowOf_eq_ok_iff.mp hrow
      obtain rfl : (t.blob.size : Int) = n := Option.some.inj hsize
      rw [hn] at hfits
      cases hfits
    | error f =>
      obtain ⟨⟨d, rfl⟩, -⟩ := insertSighting_error hr
      rfl

theorem tables_of_large_all (hn : sizeInRange t.blob.size = false) (ws : List Outside) (s : Store) :
    (Errand.afterAll (ws.map (t.errand registry)) s).tables = s.tables := by
  induction ws generalizing s with
  | nil => rfl
  | cons w ws ih => exact (ih _).trans (tables_of_large hn w s)

end Store

/-- Handling a task more than once is harmless. Of a blob that a writable store has nothing of, and whose
candidates come back with the same outcomes every time, the store tells after any number of handlings what it
tells after the first, if they do not leave more events than the threshold. The status has the histories as
many times over as the task was handled, and all else but the latest moment is the same; and the store can
tell its statuses if it could before. A blob that is too large leaves nothing at all. -/
theorem Task.statuses_repeat {t : Task} {registry : Registry} {outcome : Extractor → Outcome Value}
    {w : Outside} {ws : List Outside} (hy : ∀ w' ∈ w :: ws, t.Yields registry outcome w') {s : Store}
    (hw : s.IsWritable) (hc : ∀ n, s.clock n ≤ s.clock (n + 1)) (hl : s.Lacks t.blob.id) :
    let once := (t.errand registry w).after s
    let again := Errand.afterAll ((w :: ws).map (t.errand registry)) s
    (Store.sizeInRange t.blob.size = false → once.tables = s.tables ∧ again.tables = s.tables) ∧
      (Store.sizeInRange t.blob.size = true → ∀ scope threshold,
        Store.inScope scope t.params.ingestId = true →
        (again.events.length : Int) ≤ s.events.length + threshold →
        let told (s : Store) := ((Store.log.statuses scope threshold).run s).1
        let own (st : BlobStatus) := (st.blobId, st.ingestId) == (some t.blob.id, some t.params.ingestId)
        ((∃ answer, told once = .ok answer) ↔ ∃ answer, told s = .ok answer) ∧
          ∀ answer, told once = .ok answer → ∃ answer' st st', told again = .ok answer' ∧
            answer.filter own = [st] ∧ answer'.filter own = [st'] ∧ st.Repeats (w :: ws).length st') := by
  intro once again
  constructor
  · intro hn
    exact ⟨Store.tables_of_large hn w s, Store.tables_of_large_all hn (w :: ws) s⟩
  · intro hn scope threshold hi hlen told own
    obtain ⟨hfirst, hrest⟩ := List.forall_mem_cons.mp hy
    obtain ⟨rows, x, honce⟩ := (Store.handled_zero t registry outcome hw hc).errand hn hfirst
    obtain ⟨rows', xs, hagain⟩ := honce.errands hn hrest
    rw [List.nil_append] at honce hagain
    -- The first handling tells at least of the candidates, and what it tells comes first for good.
    obtain ⟨r, rest, rfl⟩ : ∃ r rest, rows = r :: rest := by
      apply List.exists_cons_of_ne_nil
      rintro rfl
      cases honce.written
    have hcount : ((r :: (rest ++ rows')).length : Int) ≤ threshold := by
      have hevents : again.events = s.events ++ (r :: (rest ++ rows')) := hagain.events
      rw [hevents, List.length_append] at hlen
      omega
    have hcount₁ : ((r :: rest).length : Int) ≤ threshold := by
      simp only [List.length_cons, List.length_append] at hcount ⊢
      omega
    obtain ⟨hanswers, st, hst, hentry⟩ := honce.exists_entry hl (Nat.zero_lt_one) hi hcount₁
    have hk : 0 < 0 + 1 + ws.length := by omega
    obtain ⟨hanswers', st', hst', hentry'⟩ := hagain.exists_entry hl hk hi hcount
    refine ⟨hanswers, ?_⟩
    intro answer ha
    obtain ⟨answer', ha'⟩ := hanswers'.mpr (hanswers.mp ⟨answer, ha⟩)
    have hlength : 0 + 1 + ws.length = (w :: ws).length := by simp [Nat.add_comm]
    exact ⟨answer', st, st', ha', hentry answer ha, hentry' answer' ha', hlength ▸ hst.repeats hk hst'⟩

theorem Task.statuses_repeat_of_three :
    let x := Extractor.elsewhere "x" ["t"] 0 0 0
    let registry : Registry := ⟨[x], by simp⟩
    let t : Task := ⟨⟨"b", "t", 1, by decide⟩, .ofString "/f", "/f", ⟨"i", [], none, none⟩⟩
    let w : Outside := { Outside.calm with results := [("x", [.ok (.failed ⟨.other, "", none⟩)])] }
    let s : Store := { Store.empty (.still 0) with events := [⟨1, "c", "j", "HashComplete", "Success", [], 0⟩] }
    let told (s : Store) := ((Store.log.statuses (.exactly "i") 100).run s).1
    ∃ answer answer' st st', told ((t.errand registry w).after s) = .ok answer ∧
      told (Errand.afterAll [t.errand registry w, t.errand registry w, t.errand registry w] s) = .ok answer' ∧
      (answer.filter fun st => (st.blobId, st.ingestId) == (some "b", some "i")) = [st] ∧
      (answer'.filter fun st => (st.blobId, st.ingestId) == (some "b", some "i")) = [st'] ∧
      st.Repeats 3 st' := by
  intro x registry t w s told
  have hc : registry.candidates t.blob.mimeType t.blob.size = [x] := List.mergeSort_singleton x
  have hy : ∀ w' ∈ [w, w, w], t.Yields registry (fun _ => .failed ⟨.other, "", none⟩) w' := by
    intro w' hw'
    obtain rfl : w' = w := by simpa using hw'
    rw [Task.Yields, hc]
    rfl
  have hs : told s = .ok [] := by
    rw [Store.statuses_eq_ok_iff]
    have he : s.eventsIn (.exactly "i") = [] := by simp [Store.eventsIn, Store.inScope, s]
    have hr : s.sightingsIn (.exactly "i") = [] := by simp [Store.sightingsIn, Store.empty, s]
    have hnone : Status.reconstruct [] [] 100 = .ok (List.mergeSort [] Status.statusBefore) := rfl
    rw [he, hr, hnone, List.mergeSort_nil]
    exact ⟨rfl, rfl, rfl⟩
  have hlength : ((Errand.afterAll [t.errand registry w, t.errand registry w, t.errand registry w]
      s).events.length : Int) ≤ s.events.length + 100 := by
    simp only [Errand.afterAll, List.foldl_cons, List.foldl_nil, Task.errand, Errand.after, Request.handle,
      handle, dispatch, hc]
    decide
  have hl : s.Lacks t.blob.id := ⟨by simp [s, t], by simp [s, Store.empty]⟩
  have hw : s.IsWritable := Store.isWritable_of_undisturbed rfl
  obtain ⟨-, hrepeat⟩ := Task.statuses_repeat hy hw (fun _ => Nat.le_refl 0) hl
  obtain ⟨hanswers, hentries⟩ := hrepeat (by decide) (.exactly "i") 100 (by decide) hlength
  obtain ⟨answer, ha⟩ := hanswers.mpr ⟨[], hs⟩
  obtain ⟨answer', st, st', ha', hst, hst', hr⟩ := hentries answer ha
  exact ⟨answer, answer', st, st', ha, ha', hst, hst', hr⟩

end Intake
