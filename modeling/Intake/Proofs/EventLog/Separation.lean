import Intake.Proofs.EventLog.Writes
import Intake.Proofs.Status.Locality

/-!
# Blobs apart

What is written about one blob does not show in what is told of the others, although it shifts the numbers
of their rows. So removing a blob is as good as never having heard of it.
-/
namespace Intake.Store

/-- One change of the tables. A write finds the clock at a moment of its own. -/
inductive Change where
  | event (now : WallTime) (e : Event)
  | sighting (now : WallTime) (x : Sighting)
  | purge (blobId : String)

namespace Change

def about? : Change → Option String
  | event _ e => e.blobId
  | sighting _ x => x.blobId
  | purge b => some b

def perform : Change → Action Store Unit
  | event now e => do
    .modify fun s => { s with clock := .still now }
    insertEvent e
  | sighting now x => do
    .modify fun s => { s with clock := .still now }
    insertSighting x
  | purge b => do
    let _ ← Store.purge b
    return ()

def performAll : List Change → Action Store Unit
  | [] => pure ()
  | c :: cs => do
    c.perform
    performAll cs

end Change

/-- What the stored events say, in the order in which they were stored. Their numbers are left out. -/
def told (s : Store) : List Event := s.events.map fun r => r.toEvent.unnumbered

/-- What the stored sightings say, in the order in which they were stored. -/
def seen (s : Store) : List Sighting := s.sightings.map SightingRow.toSighting

/-- In both tables later rows have larger numbers, and the database refuses nothing. -/
structure Orderly (s : Store) : Prop where
  events : s.events.Pairwise fun r t => r.id < t.id
  sightings : s.sightings.Pairwise fun r t => r.id < t.id
  undisturbed : s.disturbances = .none

theorem orderly_empty (clock : Clock) : (empty clock).Orderly := ⟨.nil, .nil, rfl⟩

theorem Orderly.isWritable {s : Store} (h : s.Orderly) : s.IsWritable :=
  isWritable_of_undisturbed h.undisturbed

theorem Orderly.query_never {s : Store} (h : s.Orderly) : s.disturbances.query = .never := by
  rw [h.undisturbed]
  rfl

theorem map_mergeSort_placedBefore {ρ α : Type} {time id : ρ → Nat} {content : ρ → α} {le : α → α → Bool}
    (hle : ∀ r t, le (content r) (content t) = decide (time r ≤ time t)) {l : List ρ}
    (h : l.Pairwise fun r t => id r < id t) :
    (l.mergeSort fun r t => placedBefore (time r, id r) (time t, id t)).map content =
      (l.map content).mergeSort le := by
  have hs : (l.mergeSort fun r t => placedBefore (time r, id r) (time t, id t)) =
      l.mergeSort fun r t => decide (time r ≤ time t) := by
    refine Sorting.mergeSort_congr_of_pairwise ?_ ?_ ?_ ?_ (h.imp ?_)
    · exact fun r t u => placedBefore_trans _ _ _
    · exact fun r t => placedBefore_total _ _
    · intro r t u h h'
      simp only [decide_eq_true_eq] at *
      omega
    · intro r t
      simp only [Bool.or_eq_true, decide_eq_true_eq]
      omega
    · intro r t hrt
      rw [placedBefore, decide_eq_decide]
      omega
  rw [hs]
  exact List.map_mergeSort fun r _ t _ => (hle r t).symm

def noLater (d e : Event) : Bool := decide (d.moment.instant ≤ e.moment.instant)

theorem noLater_toEvent (r t : EventRow) :
    noLater r.toEvent.unnumbered t.toEvent.unnumbered = decide (r.time ≤ t.time) := by
  rw [noLater, decide_eq_decide]
  show r.toEvent.moment.instant ≤ t.toEvent.moment.instant ↔ _
  rw [r.instant_moment, t.instant_moment]
  exact Int.ofNat_le

/-- What an orderly store gives out of its events depends on what they say alone. -/
theorem Orderly.eventsIn {s : Store} (h : s.Orderly) (scope : Scope) :
    (s.eventsIn scope).map Event.unnumbered =
      (s.told.filter fun e => e.ingestId.any (inScope scope)).mergeSort noLater := by
  rw [Store.eventsIn, told, List.map_map, List.filter_map,
    ← map_mergeSort_placedBefore noLater_toEvent (h.events.filter _)]
  rfl

theorem Orderly.sightingsIn {s : Store} (h : s.Orderly) (scope : Scope) :
    s.sightingsIn scope =
      (s.seen.filter fun x => x.ingestId.any (inScope scope)).mergeSort Status.sightingBefore := by
  rw [Store.sightingsIn, seen, List.filter_map,
    ← map_mergeSort_placedBefore sightingBefore_toSighting (h.sightings.filter _)]
  rfl

theorem noLater_trans (d e f : Event) (h : noLater d e = true) (h' : noLater e f = true) :
    noLater d f = true := by
  simp only [noLater, decide_eq_true_eq] at *
  omega

theorem noLater_total (d e : Event) : (noLater d e || noLater e d) = true := by
  simp only [noLater, Bool.or_eq_true, decide_eq_true_eq]
  omega

/-- What a change does to all that an orderly store tells. -/
def Change.Acts (c : Change) (f : List Event → List Event) (g : List Sighting → List Sighting) : Prop :=
  ∀ s, Orderly s → ∃ s', c.perform.run s = (.ok (), s') ∧ s'.Orderly ∧ s'.told = f s.told ∧ s'.seen = g s.seen

theorem acts_event {now : WallTime} {e : Event} {s s' : Store}
    (h : (Change.event now e).perform.run s = (.ok (), s')) :
    ∃ d, d.blobId = e.blobId ∧ (Change.event now e).Acts (· ++ [d]) id := by
  obtain ⟨_, s₁, hc, h⟩ := Action.run_bind_eq_ok_iff.mp h
  cases hc
  obtain ⟨ms, r, hm, hr, -⟩ := insertEvent_ok h
  obtain ⟨b, i, hb, hi, rfl⟩ := rowOf_eq_ok_iff.mp hr
  -- What is told of the row has no number, so it is the same whichever store takes it.
  refine ⟨⟨some b, some i, e.type, e.status, .object ms,
    some (.withoutOffset ((e.time.map Timestamp.wall).getD now)), none⟩, hb.symm, ?_⟩
  intro t ht
  have hw : IsWritable { t with clock := .still now } := ⟨ht.isWritable.1, ht.isWritable.2⟩
  have hr' : rowOf (nextId (t.events.map EventRow.id)) now e ms = .ok _ :=
    rowOf_eq_ok_iff.mpr ⟨b, i, hb, hi, rfl⟩
  refine ⟨_, hw.run_insertEvent hm hr', ⟨pairwise_append_nextId ht.events rfl, ht.sightings, ht.undisturbed⟩,
    ?_, rfl⟩
  exact List.map_append

theorem acts_sighting {now : WallTime} {x : Sighting} {s s' : Store}
    (h : (Change.sighting now x).perform.run s = (.ok (), s')) :
    ∃ y, y.blobId = x.blobId ∧ (Change.sighting now x).Acts id (· ++ [y]) := by
  obtain ⟨_, s₁, hc, h⟩ := Action.run_bind_eq_ok_iff.mp h
  cases hc
  obtain ⟨r, hr, -⟩ := insertSighting_ok h
  obtain ⟨b, i, n, path, hb, hi, hn, hp, hz, rfl⟩ := sightingRowOf_eq_ok_iff.mp hr
  refine ⟨⟨some i, some b, some n, some path,
    some (.withoutOffset ((x.time.map Timestamp.wall).getD now))⟩, hb.symm, ?_⟩
  intro t ht
  have hw : IsWritable { t with clock := .still now } := ⟨ht.isWritable.1, ht.isWritable.2⟩
  have hr' : sightingRowOf (nextId (t.sightings.map SightingRow.id)) now x = .ok _ :=
    sightingRowOf_eq_ok_iff.mpr ⟨b, i, n, path, hb, hi, hn, hp, hz, rfl⟩
  refine ⟨_, hw.run_insertSighting hr',
    ⟨ht.events, pairwise_append_nextId ht.sightings rfl, ht.undisturbed⟩, rfl, ?_⟩
  exact List.map_append

theorem acts_purge (b : String) :
    (Change.purge b).Acts (·.filter fun e => e.blobId != some b) (·.filter fun x => x.blobId != some b) := by
  intro s hs
  refine ⟨s.without b, ?_, ⟨hs.events.filter _, hs.sightings.filter _, hs.undisturbed⟩, ?_, ?_⟩
  · exact Action.run_bind_of_ok (run_purge hs.undisturbed b)
  · dsimp only
    rw [told, told, List.filter_map]
    rfl
  · dsimp only
    rw [seen, seen, List.filter_map]
    rfl

/-- A change that succeeds once succeeds on every orderly store, and does the same to what it tells. -/
theorem Change.acts_of_ok {c : Change} {s s' : Store} (h : c.perform.run s = (.ok (), s')) :
    (∃ d, d.blobId = c.about? ∧ c.Acts (· ++ [d]) id) ∨ (∃ y, y.blobId = c.about? ∧ c.Acts id (· ++ [y])) ∨
      ∃ b, c.about? = some b ∧
        c.Acts (·.filter fun e => e.blobId != some b) (·.filter fun x => x.blobId != some b) := by
  cases c with
  | event now e => exact .inl (acts_event h)
  | sighting now x => exact .inr (.inl (acts_sighting h))
  | purge b => exact .inr (.inr ⟨b, rfl, acts_purge b⟩)

theorem Orderly.perform {c : Change} {s s' : Store} (h : s.Orderly)
    (hr : c.perform.run s = (.ok (), s')) : s'.Orderly := by
  obtain ⟨d, -, ha⟩ | ⟨y, -, ha⟩ | ⟨b, -, ha⟩ := Change.acts_of_ok hr
  all_goals
    obtain ⟨_, hp, ho, -⟩ := ha s h
    cases hr.symm.trans hp
    exact ho

/-- A store beside one that never heard of a blob. -/
structure Apart (b : String) (s s' : Store) : Prop where
  orderly : s.Orderly
  orderly' : s'.Orderly
  told : s'.told = s.told.filter fun e => e.blobId != some b
  seen : s'.seen = s.seen.filter fun x => x.blobId != some b

/-- A change about the blob is nothing to the store that never hears of it. -/
theorem Apart.step_same {b : String} {c : Change} {s s' s₁ : Store} (h : Apart b s s')
    (hc : c.about? = some b) (hr : c.perform.run s = (.ok (), s₁)) : Apart b s₁ s' := by
  obtain ⟨d, hd, ha⟩ | ⟨y, hy, ha⟩ | ⟨b', hb, ha⟩ := Change.acts_of_ok hr
  · obtain ⟨_, hp, ho, ht, hs⟩ := ha s h.orderly
    cases hr.symm.trans hp
    refine ⟨ho, h.orderly', ?_, by rw [hs, h.seen]; rfl⟩
    rw [ht, h.told, List.filter_append, List.filter_cons_of_neg (by simp [hd, hc])]
    exact (List.append_nil _).symm
  · obtain ⟨_, hp, ho, ht, hs⟩ := ha s h.orderly
    cases hr.symm.trans hp
    refine ⟨ho, h.orderly', by rw [ht, h.told]; rfl, ?_⟩
    rw [hs, h.seen, List.filter_append, List.filter_cons_of_neg (by simp [hy, hc])]
    exact (List.append_nil _).symm
  · obtain ⟨_, hp, ho, ht, hs⟩ := ha s h.orderly
    cases hr.symm.trans hp
    cases hb.symm.trans hc
    refine ⟨ho, h.orderly', ?_, ?_⟩
    · dsimp only at ht
      rw [ht, h.told, Lists.filter_self]
    · dsimp only at hs
      rw [hs, h.seen, Lists.filter_self]

theorem Apart.step_other {b : String} {c : Change} {s s' s₁ : Store} (h : Apart b s s')
    (hc : c.about? ≠ some b) (hr : c.perform.run s = (.ok (), s₁)) :
    ∃ s₁', c.perform.run s' = (.ok (), s₁') ∧ Apart b s₁ s₁' := by
  obtain ⟨d, hd, ha⟩ | ⟨y, hy, ha⟩ | ⟨b', hb, ha⟩ := Change.acts_of_ok hr
  · obtain ⟨_, hp, ho, ht, hs⟩ := ha s h.orderly
    cases hr.symm.trans hp
    obtain ⟨s₁', hp', ho', ht', hs'⟩ := ha s' h.orderly'
    refine ⟨s₁', hp', ho, ho', ?_, by rw [hs, hs']; exact h.seen⟩
    rw [ht, ht', h.told, List.filter_append, List.filter_cons_of_pos (by simpa [hd] using hc)]
    rfl
  · obtain ⟨_, hp, ho, ht, hs⟩ := ha s h.orderly
    cases hr.symm.trans hp
    obtain ⟨s₁', hp', ho', ht', hs'⟩ := ha s' h.orderly'
    refine ⟨s₁', hp', ho, ho', by rw [ht, ht']; exact h.told, ?_⟩
    rw [hs, hs', h.seen, List.filter_append, List.filter_cons_of_pos (by simpa [hy] using hc)]
    rfl
  · obtain ⟨_, hp, ho, ht, hs⟩ := ha s h.orderly
    cases hr.symm.trans hp
    obtain ⟨s₁', hp', ho', ht', hs'⟩ := ha s' h.orderly'
    refine ⟨s₁', hp', ho, ho', ?_, ?_⟩
    · dsimp only at ht ht'
      rw [ht, ht', h.told, Lists.filter_comm]
    · dsimp only at hs hs'
      rw [hs, hs', h.seen, Lists.filter_comm]

theorem Apart.run {b : String} {cs : List Change} {s s' s₁ : Store} (h : Apart b s s')
    (hr : (Change.performAll cs).run s = (.ok (), s₁)) :
    ∃ s₁', (Change.performAll (cs.filter fun c => c.about? != some b)).run s' = (.ok (), s₁') ∧
      Apart b s₁ s₁' := by
  -- `Apart` is what both runs keep; the changes about the blob are steps of the first run alone.
  induction cs generalizing s s' with
  | nil =>
    cases hr
    exact ⟨s', rfl, h⟩
  | cons c cs ih =>
    obtain ⟨_, s₂, hc, hr⟩ := Action.run_bind_eq_ok_iff.mp hr
    by_cases ha : c.about? = some b
    · rw [List.filter_cons_of_neg (by simpa using ha)]
      exact ih (h.step_same ha hc) hr
    · obtain ⟨s₂', hc', h'⟩ := h.step_other ha hc
      obtain ⟨s₁', hr', h''⟩ := ih h' hr
      rw [List.filter_cons_of_pos (by simpa using ha)]
      exact ⟨s₁', (Action.run_bind_of_ok hc').trans hr', h''⟩

theorem Apart.eventsIn {b : String} {s s' : Store} (h : Apart b s s') (scope : Scope) :
    (s'.eventsIn scope).map Event.unnumbered =
      ((s.eventsIn scope).filter fun e => e.blobId != some b).map Event.unnumbered := by
  have hf : ((s.eventsIn scope).filter fun e => e.blobId != some b).map Event.unnumbered =
      ((s.eventsIn scope).map Event.unnumbered).filter fun e => e.blobId != some b := by
    rw [List.filter_map]
    rfl
  rw [hf, h.orderly'.eventsIn, h.orderly.eventsIn, h.told,
    Sorting.filter_mergeSort noLater_trans noLater_total, Lists.filter_comm]

theorem Apart.sightingsIn {b : String} {s s' : Store} (h : Apart b s s') (scope : Scope) :
    s'.sightingsIn scope = (s.sightingsIn scope).filter fun x => x.blobId != some b := by
  rw [h.orderly'.sightingsIn, h.orderly.sightingsIn, h.seen,
    Sorting.filter_mergeSort Status.sightingBefore_trans Status.sightingBefore_total, Lists.filter_comm]

/-- A store that never heard of a blob answers as the other would if it left the blob out. -/
theorem Apart.reconstruct {b : String} {s s' : Store} (h : Apart b s s') (scope : Scope)
    (threshold : Int) :
    Status.reconstruct (s'.eventsIn scope) (s'.sightingsIn scope) threshold =
      Status.reconstruct ((s.eventsIn scope).filter fun e => e.blobId != some b)
        ((s.sightingsIn scope).filter fun x => x.blobId != some b) threshold := by
  rw [h.sightingsIn]
  exact Status.reconstruct_renumbered (s'.stored_eventsIn scope) ((s.stored_eventsIn scope).filter _)
    ((s.stored_sightingsIn scope).filter _) (h.eventsIn scope) threshold

/-- Once a blob was removed, a store is like one that never heard of it. -/
theorem apart_of_purge_last {b : String} {cs : List Change} {s s₁ : Store} (h : s.Orderly)
    (hr : (Change.performAll cs).run s = (.ok (), s₁)) (hl : cs.getLast? = some (.purge b)) :
    Apart b s₁ s₁ := by
  induction cs generalizing s with
  | nil => cases hl
  | cons c cs ih =>
    obtain ⟨_, s₂, hc, hcs⟩ := Action.run_bind_eq_ok_iff.mp hr
    cases cs with
    | nil =>
      cases hl
      cases hcs
      obtain ⟨_, hp, ho, ht, hs⟩ := acts_purge b s h
      cases hc.symm.trans hp
      dsimp only at ht hs
      exact ⟨ho, ho, by rw [ht, Lists.filter_self], by rw [hs, Lists.filter_self]⟩
    | cons c' cs =>
      rw [List.getLast?_cons_cons] at hl
      exact ih (h.perform hc) hcs hl

/-- Blobs do not interfere. After any changes that succeed, leaving a blob out of an answer gives the answer
after the changes that are not about the blob, entry for entry. If the last change was to remove the blob,
no question tells the two apart. -/
theorem statuses_without {clock : Clock} {cs : List Change} {s : Store}
    (h : (Change.performAll cs).run (.empty clock) = (.ok (), s)) (b : String) :
    ∃ s', (Change.performAll (cs.filter fun c => c.about? != some b)).run (.empty clock) = (.ok (), s') ∧
      ∀ scope threshold,
        (∀ answer, ((log.statuses scope threshold).run s).1 = .ok answer →
          ((log.statuses scope threshold).run s').1 = .ok (answer.filter fun t => t.blobId != some b)) ∧
        (cs.getLast? = some (.purge b) →
          ((log.statuses scope threshold).run s').1 = ((log.statuses scope threshold).run s).1) := by
  have he : Apart b (.empty clock) (.empty clock) := ⟨orderly_empty _, orderly_empty _, rfl, rfl⟩
  obtain ⟨s', hr, ha⟩ := he.run h
  refine ⟨s', hr, ?_⟩
  intro scope threshold
  rw [run_statuses ha.orderly.query_never, run_statuses ha.orderly'.query_never]
  constructor
  · intro answer hs
    have hw := Status.reconstruct_without (s.stored_eventsIn scope) (s.stored_sightingsIn scope) hs b
    exact (ha.reconstruct scope threshold).trans hw
  · intro hl
    have hp := apart_of_purge_last (orderly_empty clock) h hl
    exact (ha.reconstruct scope threshold).trans (hp.reconstruct scope threshold).symm

theorem statuses_without_of_two :
    let cs : List Change :=
      [.event 5 (.mimeTypeDetected (some "a") (some "i") "text/plain" [.text "x"] none),
        .event 4 (.mimeTypeDetected (some "b") (some "i") "text/plain" [.text "x"] none), .purge "a"]
    ∃ s s', (Change.performAll cs).run (.empty (.still 0)) = (.ok (), s) ∧
      (Change.performAll (cs.filter fun c => c.about? != some "a")).run (.empty (.still 0)) = (.ok (), s') ∧
      ∀ scope threshold,
        ((log.statuses scope threshold).run s').1 = ((log.statuses scope threshold).run s).1 := by
  intro cs
  have h : (Change.performAll cs).run (.empty (.still 0)) = (.ok (),
      ⟨[⟨2, "b", "i", "MimeTypeDetected", "Success",
        [("extractors", .list [.text "x"]), ("mimeTypes", .text "text/plain")], 4⟩], [], .still 4, .none⟩) := by
    cbv
  obtain ⟨s', hr, hs⟩ := statuses_without h "a"
  exact ⟨_, s', h, hr, fun scope threshold => (hs scope threshold).2 rfl⟩

end Intake.Store
