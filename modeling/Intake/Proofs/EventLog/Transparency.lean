import Intake.Proofs.EventLog.Separation
import Intake.Proofs.Status.Permutation

/-!
# The store adds nothing

What is written with moments of its own is read back as it was, with numbers and in another order. So
statuses can be told from the written events and sightings as well as from the store.
-/
namespace Intake

/-- An event with a copy of its details, which is the object that they make. -/
def Event.copied (e : Event) : Event :=
  match e.details.toMembers with
  | .ok members => { e with details := .object members }
  | .error _ => e

theorem Event.ingestId_copied (e : Event) : e.copied.ingestId = e.ingestId := by
  rw [copied]
  split <;> rfl

namespace Store

/-- A write of an event or of a sighting. -/
inductive Write where
  | event (e : Event)
  | sighting (x : Sighting)

namespace Write

def event? : Write → Option Event
  | event e => some e
  | sighting _ => none

def sighting? : Write → Option Sighting
  | event _ => none
  | sighting x => some x

def time : Write → Option Timestamp
  | event e => e.time
  | sighting x => x.time

def perform : Write → Action Store Unit
  | event e => log.insertEvent e
  | sighting x => log.insertSighting x

def performAll : List Write → Action Store Unit
  | [] => pure ()
  | m :: ms => do
    m.perform
    performAll ms

end Write

theorem Orderly.insertEvent {s s' : Store} (hs : s.Orderly) {e : Event} {w : WallTime}
    (ht : e.time = some (.withoutOffset w)) (h : (insertEvent e).run s = (.ok (), s')) :
    s'.Orderly ∧ s'.told = s.told ++ [e.copied.unnumbered] ∧ s'.seen = s.seen := by
  obtain ⟨ms, r, hm, hr, rfl⟩ := insertEvent_ok h
  obtain ⟨b, i, hb, hi, rfl⟩ := rowOf_eq_ok_iff.mp hr
  refine ⟨⟨pairwise_append_nextId hs.events rfl, hs.sightings, ?_⟩, ?_, rfl⟩
  · rw [hs.undisturbed]
    rfl
  · obtain ⟨_, _, type, status, d, _, n⟩ := e
    cases hb
    cases hi
    cases ht
    rw [Event.copied, hm]
    exact List.map_append

theorem Orderly.insertSighting {s s' : Store} (hs : s.Orderly) {x : Sighting} {w : WallTime}
    (ht : x.time = some (.withoutOffset w)) (h : (insertSighting x).run s = (.ok (), s')) :
    s'.Orderly ∧ s'.told = s.told ∧ s'.seen = s.seen ++ [x] := by
  obtain ⟨r, hr, rfl⟩ := insertSighting_ok h
  obtain ⟨b, i, n, path, hb, hi, hn, hp, -, rfl⟩ := sightingRowOf_eq_ok_iff.mp hr
  refine ⟨⟨hs.events, pairwise_append_nextId hs.sightings rfl, ?_⟩, rfl, ?_⟩
  · rw [hs.undisturbed]
    rfl
  · obtain ⟨_, _, _, _, _⟩ := x
    cases hb
    cases hi
    cases hn
    cases hp
    cases ht
    exact List.map_append

theorem Orderly.write {m : Write} {w : WallTime} (ht : m.time = some (.withoutOffset w)) {s s' : Store}
    (hs : s.Orderly) (h : m.perform.run s = (.ok (), s')) :
    s'.Orderly ∧ s'.told = s.told ++ ([m].filterMap Write.event?).map (fun e => e.copied.unnumbered) ∧
      s'.seen = s.seen ++ [m].filterMap Write.sighting? := by
  cases m with
  | event e =>
    obtain ⟨ho, he, hx⟩ := hs.insertEvent ht h
    exact ⟨ho, he, hx.trans (List.append_nil _).symm⟩
  | sighting x =>
    obtain ⟨ho, he, hx⟩ := hs.insertSighting ht h
    exact ⟨ho, he.trans (List.append_nil _).symm, hx⟩

/-- A store tells what was written, in the order in which it was. -/
theorem Orderly.writeAll {ms : List Write} (hm : ∀ m ∈ ms, ∃ w, m.time = some (.withoutOffset w))
    {s s' : Store} (hs : s.Orderly) (h : (Write.performAll ms).run s = (.ok (), s')) :
    s'.Orderly ∧ s'.told = s.told ++ (ms.filterMap Write.event?).map (fun e => e.copied.unnumbered) ∧
      s'.seen = s.seen ++ ms.filterMap Write.sighting? := by
  induction ms generalizing s with
  | nil =>
    cases h
    exact ⟨hs, (List.append_nil _).symm, (List.append_nil _).symm⟩
  | cons m ms ih =>
    obtain ⟨_, s₁, hfirst, hrest⟩ := Action.run_bind_eq_ok_iff.mp h
    obtain ⟨w, ht⟩ := hm m List.mem_cons_self
    obtain ⟨ho, he, hx⟩ := hs.write ht hfirst
    obtain ⟨ho', he', hx'⟩ := ih (fun m h => hm m (List.mem_cons_of_mem _ h)) ho hrest
    rw [← List.singleton_append, List.filterMap_append, List.filterMap_append, List.map_append]
    refine ⟨ho', ?_, ?_⟩
    · rw [he', he, List.append_assoc]
    · rw [hx', hx, List.append_assoc]

theorem eventBefore_unnumbered (d e : Event) : Status.eventBefore d.unnumbered e.unnumbered = noLater d e := by
  rw [noLater, Status.eventBefore, decide_eq_decide]
  show d.moment.instant < e.moment.instant ∨ d.moment.instant = e.moment.instant ∧ (-1 : Int) ≤ -1 ↔
    d.moment.instant ≤ e.moment.instant
  omega

theorem eventBefore_of_order {d e : Event}
    (h : Status.eventBefore d e = true ∨ Status.numberOf d < Status.numberOf e) :
    Status.eventBefore d e = Status.eventBefore d.unnumbered e.unnumbered := by
  rw [eventBefore_unnumbered, noLater]
  rw [Status.eventBefore, decide_eq_true_eq] at h
  rw [Status.eventBefore, decide_eq_decide]
  omega

theorem mergeSort_noLater (es : List Event) :
    (es.map Event.unnumbered).mergeSort noLater =
      (es.map Event.unnumbered).mergeSort Status.eventBefore := by
  refine Sorting.mergeSort_congr_of_pairwise noLater_trans noLater_total Status.eventBefore_trans
    Status.eventBefore_total (List.pairwise_map.mpr (List.pairwise_of_forall fun d e => ?_))
  exact (eventBefore_unnumbered d e).symm

theorem inScope_exactly (i : String) (o : Option String) : o.any (inScope (.exactly i)) = (o == some i) := by
  cases o with
  | none => rfl
  | some j => exact BEq.comm

theorem Orderly.eventsIn_written {s : Store} (hs : s.Orderly) {es : List Event}
    (h : s.told = es.map fun e => e.copied.unnumbered) (i : String) :
    (s.eventsIn (.exactly i)).map Event.unnumbered =
      ((es.filter fun e => e.ingestId == some i).map fun e => e.copied.unnumbered).mergeSort noLater := by
  rw [hs.eventsIn, h, List.filter_map]
  refine congrArg (fun l => (List.map _ l).mergeSort noLater) (List.filter_congr fun e _ => ?_)
  show e.copied.ingestId.any _ = _
  rw [e.ingestId_copied, inScope_exactly]

theorem Orderly.sightingsIn_written {s : Store} (hs : s.Orderly) (i : String) :
    s.sightingsIn (.exactly i) =
      (s.seen.filter fun x => x.ingestId == some i).mergeSort Status.sightingBefore := by
  rw [hs.sightingsIn]
  exact congrArg (List.mergeSort · _) (List.filter_congr fun x _ => inScope_exactly i x.ingestId)

/-- Statuses are those of what was written. All writes go to an empty store and succeed, each with a moment
of its own, shown by a clock of which no offset is known. Then what the store tells of an ingestion is what
the events and sightings written about it amount to, in the order in which they were written. How the events
are numbered does not matter, if later ones have larger numbers. Details that are an object are their own
copy. -/
theorem statuses_transparent {clock : Clock} {ms : List Write}
    (hm : ∀ m ∈ ms, ∃ w, m.time = some (.withoutOffset w)) {s : Store}
    (h : (Write.performAll ms).run (.empty clock) = (.ok (), s)) {i : String} {es : List Event}
    (hes : es.map Event.unnumbered =
      ((ms.filterMap Write.event?).filter fun e => e.ingestId == some i).map fun e => e.copied.unnumbered)
    (hid : es.Pairwise fun d e => Status.numberOf d < Status.numberOf e) (threshold : Int)
    (answer : List BlobStatus) :
    ((log.statuses (.exactly i) threshold).run s).1 = .ok answer ↔
      Status.reconstruct es ((ms.filterMap Write.sighting?).filter fun x => x.ingestId == some i) threshold =
        .ok answer := by
  obtain ⟨ho, he, hx⟩ := (orderly_empty clock).writeAll hm h
  have hread : (s.eventsIn (.exactly i)).Pairwise fun d e =>
      Status.eventBefore d e = Status.eventBefore d.unnumbered e.unnumbered :=
    (s.stored_eventsIn _).order.imp fun h => eventBefore_of_order (.inl h)
  have hwritten : es.Pairwise fun d e =>
      Status.eventBefore d e = Status.eventBefore d.unnumbered e.unnumbered :=
    hid.imp fun h => eventBefore_of_order (.inr h)
  -- Without their numbers, the events that are read are the written ones put in order.
  have hevents : (s.eventsIn (.exactly i)).map Event.unnumbered =
      (es.map Event.unnumbered).mergeSort Status.eventBefore := by
    rw [ho.eventsIn_written he, ← mergeSort_noLater, hes]
  have hsightings : s.sightingsIn (.exactly i) =
      ((ms.filterMap Write.sighting?).filter fun x => x.ingestId == some i).mergeSort Status.sightingBefore := by
    rw [ho.sightingsIn_written, hx]
    rfl
  rw [run_statuses ho.query_never, ← Status.reconstruct_unnumbered hread, hevents, hsightings,
    Status.reconstruct_mergeSort, Status.reconstruct_unnumbered hwritten]

theorem statuses_transparent_of_tie :
    let run (i : String) (id : Option Int) : Event :=
      ⟨some "b", some i, "RunExtractor", "Failure", .object [("extractorName", .text "x")],
        some (.withoutOffset 5), id⟩
    let odd (id : Option Int) : Event :=
      ⟨some "b", some "i", "Elsewhere", "Odd", .object [("extractors", .null)], some (.withoutOffset 5), id⟩
    let found (id : Option Int) : Event :=
      ⟨some "b", some "i", "MimeTypeDetected", "Success", .object [("extractors", .list [.text "x"])],
        some (.withoutOffset 4), id⟩
    let x : Sighting := ⟨some "i", some "b", some 3, some "/f", some (.withoutOffset 1)⟩
    let ms : List Write :=
      [.event (run "i" none), .event (run "j" none), .sighting x, .event (odd none), .event (found none)]
    let t (w : WallTime) := Timestamp.withoutOffset w
    ∃ s, (Write.performAll ms).run (.empty (.still 0)) = (.ok (), s) ∧
      ((log.statuses (.exactly "i") 100).run s).1 =
        .ok [⟨some "b", some "i", t 4, t 5, [some "/f"], some 3, [(some "/f", some 3)], none, none,
          [⟨t 4, "MimeTypeDetected", "Success"⟩, ⟨t 5, "RunExtractor", "Failure"⟩, ⟨t 5, "Elsewhere", "Odd"⟩],
          [⟨.text "x", [⟨some (t 5), .failure⟩]⟩], [], false⟩] := by
  intro run odd found x ms t
  have h : (Write.performAll ms).run (.empty (.still 0)) = (.ok (),
      ⟨[⟨1, "b", "i", "RunExtractor", "Failure", [("extractorName", .text "x")], 5⟩,
        ⟨2, "b", "j", "RunExtractor", "Failure", [("extractorName", .text "x")], 5⟩,
        ⟨3, "b", "i", "Elsewhere", "Odd", [("extractors", .null)], 5⟩,
        ⟨4, "b", "i", "MimeTypeDetected", "Success", [("extractors", .list [.text "x"])], 4⟩],
        [⟨1, "b", "i", 3, "/f", 1⟩], .still 0, .none⟩) := by cbv
  have hm : ∀ m ∈ ms, ∃ w, m.time = some (.withoutOffset w) := by
    simp [ms, run, odd, found, x, Write.time]
  have hid : [run "i" (some 7), odd (some 8), found (some 20)].Pairwise fun d e =>
      Status.numberOf d < Status.numberOf e := by
    simp [run, odd, found, Status.numberOf]
  exact ⟨_, h, (statuses_transparent hm h (by cbv) hid 100 _).mpr (by cbv)⟩

end Store
end Intake
