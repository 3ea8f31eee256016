import Intake.Proofs.EventLog.Reading
import Intake.Proofs.EventLog.Writes

/-!
# All or nothing

An operation on the store does all that it is to do, or it ends with a fault and the tables are as they
were. So the operations that failed may as well never have been tried.
-/
namespace Intake

/-- A row says what an event says, with its own moment or else that of the clock. -/
structure EventRow.Records (r : EventRow) (now : WallTime) (e : Event) : Prop where
  blob : e.blobId = some r.blobId
  ingest : e.ingestId = some r.ingestId
  type : r.type = e.type
  status : r.status = e.status
  details : e.details.toMembers = .ok r.details
  time : r.time = (e.time.map Timestamp.wall).getD now

structure SightingRow.Records (r : SightingRow) (now : WallTime) (x : Sighting) : Prop where
  ingest : x.ingestId = some r.ingestId
  blob : x.blobId = some r.blobId
  size : x.size = some r.size
  path : x.path = some r.path
  time : r.time = (x.time.map Timestamp.wall).getD now

namespace Store

theorem records_of_rowOf {id : Nat} {now : WallTime} {e : Event} {ms : Members} {r : EventRow}
    (hm : e.details.toMembers = .ok ms) (hr : rowOf id now e ms = .ok r) : r.id = id ∧ r.Records now e := by
  obtain ⟨b, i, hb, hi, rfl⟩ := rowOf_eq_ok_iff.mp hr
  exact ⟨rfl, ⟨hb, hi, rfl, rfl, hm, rfl⟩⟩

theorem records_of_sightingRowOf {id : Nat} {now : WallTime} {x : Sighting} {r : SightingRow}
    (hr : sightingRowOf id now x = .ok r) : r.id = id ∧ r.Records now x := by
  obtain ⟨b, i, n, path, hb, hi, hn, hp, -, rfl⟩ := sightingRowOf_eq_ok_iff.mp hr
  exact ⟨rfl, ⟨hi, hb, hn, hp, rfl⟩⟩

def tables (s : Store) : List EventRow × List SightingRow := (s.events, s.sightings)

/-- An operation on the store. A write finds the clock at a moment of its own. -/
inductive Operation where
  | recordEvent (now : WallTime) (e : Event)
  | recordSighting (now : WallTime) (x : Sighting)
  | purge (blobId : String)
  | readEvents (scope : Scope)
  | readSightings (scope : Scope)

/-- What an operation answers if it succeeds. -/
inductive Answer where
  | done
  | removed (rows : Nat)
  | events (es : List Event)
  | sightings (xs : List Sighting)

theorem query_never {s : Store} (h : s.disturbances = .none) : s.disturbances.query = .never := by
  rw [h]
  rfl

theorem eventsIn_congr {s t : Store} (h : t.tables = s.tables) (scope : Scope) :
    t.eventsIn scope = s.eventsIn scope := by
  have he : t.events = s.events := congrArg Prod.fst h
  simp only [eventsIn, he]

theorem sightingsIn_congr {s t : Store} (h : t.tables = s.tables) (scope : Scope) :
    t.sightingsIn scope = s.sightingsIn scope := by
  have hx : t.sightings = s.sightings := congrArg Prod.snd h
  simp only [sightingsIn, hx]

namespace Operation

def perform : Operation → Action Store Answer
  | recordEvent now e => do
    .modify fun s => { s with clock := .still now }
    log.insertEvent e
    return .done
  | recordSighting now x => do
    .modify fun s => { s with clock := .still now }
    log.insertSighting x
    return .done
  | purge b => return .removed (← log.purge b)
  | readEvents scope => return .events (← log.events scope)
  | readSightings scope => return .sightings (← log.sightings scope)

/-- Tries operations one after another, whether those before succeeded or not. -/
def performAll : List Operation → Store → List (Except Fault Answer) × Store
  | [], s => ([], s)
  | o :: os, s =>
    let first := o.perform.run s
    let rest := performAll os first.2
    (first.1 :: rest.1, rest.2)

/-- The operations that succeed when all are tried. -/
def succeeding : List Operation → Store → List Operation
  | [], _ => []
  | o :: os, s =>
    let first := o.perform.run s
    if first.1.isOk then o :: succeeding os first.2 else succeeding os first.2

/-- The tables have room for what an operation is to store, if it is to store something. -/
def Storable : Operation → Prop
  | recordEvent _ e =>
    (∃ ms, e.details.toMembers = .ok ms) ∧ (∃ b, e.blobId = some b) ∧ ∃ i, e.ingestId = some i
  | recordSighting _ x =>
    (∃ i, x.ingestId = some i) ∧ (∃ b, x.blobId = some b) ∧ (∃ path, x.path = some path) ∧
      ∃ n, x.size = some n ∧ sizeInRange n = true
  | purge _ | readEvents _ | readSightings _ => True

/-- What an operation may do to the tables, and how it then ends. It fails only if the database is to refuse
something, or has no room for what is to be stored. -/
inductive Effect (s s' : Store) : Operation → Except Fault Answer → Prop
  | eventAdded {now : WallTime} {e : Event} {r : EventRow} (hr : r.Records now e)
      (hid : ∀ t ∈ s.events, t.id < r.id) (ht : s'.tables = (s.events ++ [r], s.sightings)) :
      Effect s s' (recordEvent now e) (.ok .done)
  | sightingAdded {now : WallTime} {x : Sighting} {r : SightingRow} (hr : r.Records now x)
      (hid : ∀ t ∈ s.sightings, t.id < r.id) (ht : s'.tables = (s.events, s.sightings ++ [r])) :
      Effect s s' (recordSighting now x) (.ok .done)
  | purged {b : String} (ht : s'.tables = (s.events.filter fun r => r.blobId != b,
        s.sightings.filter fun r => r.blobId != b)) :
      Effect s s' (purge b) (.ok (.removed ((s.events.countP fun r => r.blobId == b) +
        s.sightings.countP fun r => r.blobId == b)))
  | eventsRead {scope : Scope} (ht : s'.tables = s.tables) :
      Effect s s' (readEvents scope) (.ok (.events (s.eventsIn scope)))
  | sightingsRead {scope : Scope} (ht : s'.tables = s.tables) :
      Effect s s' (readSightings scope) (.ok (.sightings (s.sightingsIn scope)))
  | failed {o : Operation} {f : Fault} (ht : s'.tables = s.tables)
      (hp : ∀ b, o = purge b → f.kind = .storageWrite) (hs : s.disturbances = .none → ¬o.Storable) :
      Effect s s' o (.error f)

theorem run_recordEvent (now : WallTime) (e : Event) (s : Store) :
    (recordEvent now e).perform.run s =
      (insertEvent e >>= fun _ => pure Answer.done).run { s with clock := .still now } := rfl

theorem run_recordSighting (now : WallTime) (x : Sighting) (s : Store) :
    (recordSighting now x).perform.run s =
      (insertSighting x >>= fun _ => pure Answer.done).run { s with clock := .still now } := rfl

theorem run_purge (b : String) (s : Store) :
    (purge b).perform.run s = (Store.purge b >>= fun n => pure (Answer.removed n)).run s := rfl

theorem run_readEvents (scope : Scope) (s : Store) :
    (readEvents scope).perform.run s =
      (Store.readEvents scope >>= fun es => pure (Answer.events es)).run s := rfl

theorem run_readSightings (scope : Scope) (s : Store) :
    (readSightings scope).perform.run s =
      (Store.readSightings scope >>= fun xs => pure (Answer.sightings xs)).run s := rfl

theorem insertEvent_of_storable {now : WallTime} {e : Event} {s : Store} (hd : s.disturbances = .none)
    (h : Storable (recordEvent now e)) : ∃ s', (insertEvent e).run s = (.ok (), s') := by
  obtain ⟨⟨ms, hm⟩, ⟨b, hb⟩, ⟨i, hi⟩⟩ := h
  have hr : rowOf (nextId (s.events.map EventRow.id)) (s.clock 0) e ms = .ok _ :=
    rowOf_eq_ok_iff.mpr ⟨b, i, hb, hi, rfl⟩
  exact ⟨_, (isWritable_of_undisturbed hd).run_insertEvent hm hr⟩

theorem insertSighting_of_storable {now : WallTime} {x : Sighting} {s : Store}
    (hd : s.disturbances = .none) (h : Storable (recordSighting now x)) :
    ∃ s', (insertSighting x).run s = (.ok (), s') := by
  obtain ⟨⟨i, hi⟩, ⟨b, hb⟩, ⟨path, hp⟩, n, hn, hz⟩ := h
  have hr : sightingRowOf (nextId (s.sightings.map SightingRow.id)) (s.clock 0) x = .ok _ :=
    sightingRowOf_eq_ok_iff.mpr ⟨b, i, n, path, hb, hi, hn, hp, hz, rfl⟩
  exact ⟨_, (isWritable_of_undisturbed hd).run_insertSighting hr⟩

theorem recordEvent_effect (now : WallTime) (e : Event) (s : Store) :
    Effect s ((recordEvent now e).perform.run s).2 (recordEvent now e)
      ((recordEvent now e).perform.run s).1 := by
  rw [run_recordEvent]
  cases hi : (insertEvent e).run { s with clock := .still now } with
  | mk r s' =>
    cases r with
    | ok u =>
      rw [Action.run_bind_of_ok hi]
      obtain ⟨ms, r, hm, hr, rfl⟩ := insertEvent_ok hi
      obtain ⟨hid, hrec⟩ := records_of_rowOf hm hr
      apply Effect.eventAdded hrec _ rfl
      intro t ht
      rw [hid]
      exact lt_nextId (List.mem_map_of_mem ht)
    | error f =>
      rw [Action.run_bind_of_error hi]
      obtain ⟨⟨d, hs, -⟩, -⟩ := insertEvent_error hi
      refine .failed ?_ nofun ?_
      · rw [hs]
        rfl
      · intro hd ho
        obtain ⟨t, ht⟩ := insertEvent_of_storable (s := { s with clock := .still now }) hd ho
        cases hi.symm.trans ht

theorem recordSighting_effect (now : WallTime) (x : Sighting) (s : Store) :
    Effect s ((recordSighting now x).perform.run s).2 (recordSighting now x)
      ((recordSighting now x).perform.run s).1 := by
  rw [run_recordSighting]
  cases hi : (insertSighting x).run { s with clock := .still now } with
  | mk r s' =>
    cases r with
    | ok u =>
      rw [Action.run_bind_of_ok hi]
      obtain ⟨r, hr, rfl⟩ := insertSighting_ok hi
      obtain ⟨hid, hrec⟩ := records_of_sightingRowOf hr
      apply Effect.sightingAdded hrec _ rfl
      intro t ht
      rw [hid]
      exact lt_nextId (List.mem_map_of_mem ht)
    | error f =>
      rw [Action.run_bind_of_error hi]
      obtain ⟨⟨d, hs⟩, -⟩ := insertSighting_error hi
      refine .failed ?_ nofun ?_
      · rw [hs]
        rfl
      · intro hd ho
        obtain ⟨t, ht⟩ := insertSighting_of_storable (s := { s with clock := .still now }) hd ho
        cases hi.symm.trans ht

/-- Every operation has one of the effects that it may have, on any store and whatever is refused. -/
theorem perform_effect (o : Operation) (s : Store) :
    Effect s (o.perform.run s).2 o (o.perform.run s).1 := by
  cases o with
  | recordEvent now e => exact recordEvent_effect now e s
  | recordSighting now x => exact recordSighting_effect now x s
  | purge b =>
    rw [run_purge]
    obtain ⟨d, hp | ⟨words, hp⟩⟩ := purge_cases b s
    · rw [Action.run_bind_of_ok hp]
      exact .purged rfl
    · rw [Action.run_bind_of_error hp]
      refine .failed rfl (fun _ _ => rfl) ?_
      intro hd _
      cases hp.symm.trans (Store.run_purge hd b)
  | readEvents scope =>
    rw [run_readEvents]
    obtain ⟨d, hr | ⟨words, hr⟩⟩ := readEvents_cases scope s
    · rw [Action.run_bind_of_ok hr]
      exact .eventsRead rfl
    · rw [Action.run_bind_of_error hr]
      refine .failed rfl nofun ?_
      intro hd _
      cases hr.symm.trans (Store.run_readEvents (query_never hd) scope)
  | readSightings scope =>
    rw [run_readSightings]
    obtain ⟨d, hr | ⟨words, hr⟩⟩ := readSightings_cases scope s
    · rw [Action.run_bind_of_ok hr]
      exact .sightingsRead rfl
    · rw [Action.run_bind_of_error hr]
      refine .failed rfl nofun ?_
      intro hd _
      cases hr.symm.trans (Store.run_readSightings (query_never hd) scope)

theorem tables_of_error {o : Operation} {s s' : Store} {f : Fault} (h : o.perform.run s = (.error f, s')) :
    s'.tables = s.tables := by
  have he := perform_effect o s
  rw [h] at he
  cases he with
  | failed ht => exact ht

theorem perform_replayed {o : Operation} {s s' : Store} {a : Answer} (h : o.perform.run s = (.ok a, s'))
    {t : Store} (ht : t.tables = s.tables) (hd : t.disturbances = .none) :
    ∃ t', o.perform.run t = (.ok a, t') ∧ t'.tables = s'.tables ∧ t'.disturbances = .none := by
  obtain ⟨he, hx⟩ := Prod.mk.inj ht
  have hw (now : WallTime) : IsWritable { t with clock := .still now } := isWritable_of_undisturbed hd
  have hq := query_never hd
  cases o with
  | recordEvent now e =>
    rw [run_recordEvent] at h
    obtain ⟨_, s₁, hi, hp⟩ := Action.run_bind_eq_ok_iff.mp h
    cases hp
    obtain ⟨ms, r, hm, hr, rfl⟩ := insertEvent_ok hi
    have hr' : rowOf (nextId (t.events.map EventRow.id)) now e ms = .ok r := by
      rw [he]
      exact hr
    refine ⟨_, Action.run_bind_of_ok ((hw now).run_insertEvent hm hr'), ?_, hd⟩
    simp only [tables, he, hx]
  | recordSighting now x =>
    rw [run_recordSighting] at h
    obtain ⟨_, s₁, hi, hp⟩ := Action.run_bind_eq_ok_iff.mp h
    cases hp
    obtain ⟨r, hr, rfl⟩ := insertSighting_ok hi
    have hr' : sightingRowOf (nextId (t.sightings.map SightingRow.id)) now x = .ok r := by
      rw [hx]
      exact hr
    refine ⟨_, Action.run_bind_of_ok ((hw now).run_insertSighting hr'), ?_, hd⟩
    simp only [tables, he, hx]
  | purge b =>
    rw [run_purge] at h
    obtain ⟨n, s₁, hi, hp⟩ := Action.run_bind_eq_ok_iff.mp h
    cases hp
    obtain ⟨d, hr | ⟨words, hr⟩⟩ := purge_cases b s
    · cases hi.symm.trans hr
      have hn : t.countOf b = s.countOf b := by simp only [countOf, he, hx]
      rw [← hn]
      refine ⟨t.without b, Action.run_bind_of_ok (Store.run_purge hd b), ?_, hd⟩
      simp only [tables, without, he, hx]
    · cases hi.symm.trans hr
  | readEvents scope =>
    rw [run_readEvents] at h
    obtain ⟨es, s₁, hi, hp⟩ := Action.run_bind_eq_ok_iff.mp h
    cases hp
    obtain ⟨d, hr | ⟨words, hr⟩⟩ := readEvents_cases scope s
    · cases hi.symm.trans hr
      rw [← eventsIn_congr ht]
      exact ⟨t, Action.run_bind_of_ok (Store.run_readEvents hq scope), ht, hd⟩
    · cases hi.symm.trans hr
  | readSightings scope =>
    rw [run_readSightings] at h
    obtain ⟨xs, s₁, hi, hp⟩ := Action.run_bind_eq_ok_iff.mp h
    cases hp
    obtain ⟨d, hr | ⟨words, hr⟩⟩ := readSightings_cases scope s
    · cases hi.symm.trans hr
      rw [← sightingsIn_congr ht]
      exact ⟨t, Action.run_bind_of_ok (Store.run_readSightings hq scope), ht, hd⟩
    · cases hi.symm.trans hr

theorem performAll_replayed (os : List Operation) {s t : Store} (ht : t.tables = s.tables)
    (hd : t.disturbances = .none) :
    (performAll (succeeding os s) t).2.tables = (performAll os s).2.tables ∧
      (performAll (succeeding os s) t).1 = (performAll os s).1.filter Except.isOk := by
  induction os generalizing s t with
  | nil => exact ⟨ht, rfl⟩
  | cons o os ih =>
    cases h : o.perform.run s with
    | mk r s' =>
      cases r with
      | ok a =>
        obtain ⟨t', hr, ht', hd'⟩ := perform_replayed h ht hd
        obtain ⟨htables, hresults⟩ := ih ht' hd'
        have hkept : succeeding (o :: os) s = o :: succeeding os s' := by
          simp [succeeding, h, Except.isOk, Except.toBool]
        rw [hkept]
        simp only [performAll, h, hr]
        exact ⟨htables, by rw [hresults]; rfl⟩
      | error f =>
        have hleft : succeeding (o :: os) s = succeeding os s' := by
          simp [succeeding, h, Except.isOk, Except.toBool]
        rw [hleft]
        simp only [performAll, h]
        exact ih (ht.trans (tables_of_error h).symm) hd

/-- All or nothing. Whichever actions of the database fail while operations are tried on an empty store, the
tables are those that the operations that succeeded leave on their own, with the same answers. Whatever
operation comes next adds one row with a number above all others, or removes the rows of its blob and tells
how many, or leaves both tables as they are. -/
theorem all_or_nothing (clock : Clock) (d : Disturbances) (os : List Operation) :
    let start := { empty clock with disturbances := d }
    let tried := performAll os start
    let replayed := performAll (succeeding os start) (empty clock)
    replayed.2.tables = tried.2.tables ∧ replayed.1 = tried.1.filter Except.isOk ∧
      ∀ o : Operation, Effect tried.2 (o.perform.run tried.2).2 o (o.perform.run tried.2).1 := by
  intro start tried replayed
  obtain ⟨htables, hanswers⟩ := performAll_replayed os (s := start) (t := empty clock) rfl rfl
  exact ⟨htables, hanswers, fun o => perform_effect o tried.2⟩

end Operation
end Store
end Intake
