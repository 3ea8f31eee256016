import Intake.Proofs.EventLog.Atomicity
import Intake.Proofs.EventLog.Prefix
import Intake.Proofs.Status.Locality
import Mathlib

/-!
# Narrow and wide questions

A question about one ingestion and a question about all ingestions whose ids start with a text agree on the
ingestions they share, except where the wider one finds a blob stuck.
-/
namespace Intake

/-- What is told of a blob when it counts as stuck. -/
def BlobStatus.asStuck (t : BlobStatus) : BlobStatus :=
  { t with workspace := none, mimeTypes := none, history := [], extractors := [], errors := [], stuck := true }

namespace Status

/-- The entries of an answer are those of the pairs of blob and ingestion there are events of. -/
theorem mem_reconstruct {es : List Event} {rs : List Sighting} (hes : Stored es) (hrs : StoredSightings rs)
    {threshold : Int} {answer : List BlobStatus} (h : reconstruct es rs threshold = .ok answer) :
    (∀ t ∈ answer, t.key ∈ keysOf es ∧ summaryOf es rs threshold t.key = .ok t) ∧
      ∀ key ∈ keysOf es, ∃ t ∈ answer, t.key = key := by
  obtain ⟨hp, hs⟩ := entries_of_reconstruct h
  constructor
  · intro t ht
    rw [← statusOf_of_stored hes hrs]
    exact ⟨hp.mem_iff.mp (List.mem_map_of_mem ht), hs t ht⟩
  · intro key hk
    exact List.mem_map.mp (hp.mem_iff.mpr hk)

theorem summary_asStuck {b i : Option String} {es : List Event} {rs : List Sighting} {t : BlobStatus}
    (h : summary b i es rs false = .ok t) : summary b i es rs true = .ok t.asStuck := by
  cases es with
  | nil => cases h
  | cons e es =>
    obtain ⟨_, -, h⟩ := Lists.bind_eq_ok_iff.mp h
    obtain ⟨_, -, h⟩ := Lists.bind_eq_ok_iff.mp h
    obtain ⟨_, -, h⟩ := Lists.bind_eq_ok_iff.mp h
    obtain ⟨_, -, h⟩ := Lists.bind_eq_ok_iff.mp h
    cases h
    rfl

/-- What is about other ingestions matters to the status of a blob only in that it may be stuck. -/
theorem summaryOf_narrow (es : List Event) (rs : List Sighting) (threshold : Int) (b : Option String)
    (i : String) :
    summaryOf (es.filter fun e => e.ingestId == some i) (rs.filter fun r => r.ingestId == some i) threshold
        (b, some i) =
      summary b (some i) (es.filter fun e => e.key == (b, some i)) (rs.filter fun r => r.key == (b, some i))
        (isStuck (es.filter fun e => e.ingestId == some i) threshold b) := by
  have he : ((es.filter fun e => e.ingestId == some i).filter fun e => e.key == (b, some i)) =
      es.filter fun e => e.key == (b, some i) := by
    apply Lists.filter_filter_of_imp
    intro e h
    rw [beq_iff_eq] at h ⊢
    exact congrArg Prod.snd h
  have hr : ((rs.filter fun r => r.ingestId == some i).filter fun r => r.key == (b, some i)) =
      rs.filter fun r => r.key == (b, some i) := by
    apply Lists.filter_filter_of_imp
    intro r h
    rw [beq_iff_eq] at h ⊢
    exact congrArg Prod.snd h
  rw [summaryOf, he, hr]

theorem mem_keysOf_narrow {es : List Event} {b : Option String} {i : String} :
    (b, some i) ∈ keysOf (es.filter fun e => e.ingestId == some i) ↔ (b, some i) ∈ keysOf es := by
  have h := keysOf_filter es fun key => key.2 == some i
  show _ ∈ keysOf (es.filter fun e => e.key.2 == some i) ↔ _
  rw [h, List.mem_filter]
  simp

/-- The entries of one ingestion in an answer about it and in a wider answer. -/
theorem reconstruct_narrow {es : List Event} {rs : List Sighting} (hes : Stored es)
    (hrs : StoredSightings rs) {i : String} {threshold : Int} {wide narrow : List BlobStatus}
    (hw : reconstruct es rs threshold = .ok wide)
    (hn : reconstruct (es.filter fun e => e.ingestId == some i) (rs.filter fun r => r.ingestId == some i)
      threshold = .ok narrow) (b : Option String) :
    ((∃ u ∈ wide, u.key = (b, some i)) ↔ ∃ v ∈ narrow, v.key = (b, some i)) ∧
      ∀ u ∈ wide, ∀ v ∈ narrow, u.key = (b, some i) → v.key = (b, some i) →
        (isStuck es threshold b = isStuck (es.filter fun e => e.ingestId == some i) threshold b → u = v) ∧
        (isStuck es threshold b = true →
          isStuck (es.filter fun e => e.ingestId == some i) threshold b = false → u = v.asStuck) := by
  obtain ⟨hw₁, hw₂⟩ := mem_reconstruct hes hrs hw
  obtain ⟨hn₁, hn₂⟩ := mem_reconstruct (hes.filter _) (hrs.filter _) hn
  refine ⟨⟨?_, ?_⟩, ?_⟩
  · rintro ⟨u, hu, hk⟩
    exact hn₂ _ (mem_keysOf_narrow.mpr (hk ▸ (hw₁ u hu).1))
  · rintro ⟨v, hv, hk⟩
    exact hw₂ _ (mem_keysOf_narrow.mp (hk ▸ (hn₁ v hv).1))
  · intro u hu v hv huk hvk
    have hsu := (hw₁ u hu).2
    have hsv := (hn₁ v hv).2
    rw [huk, summaryOf] at hsu
    rw [hvk, summaryOf_narrow] at hsv
    constructor
    · intro hs
      rw [← hs] at hsv
      exact Except.ok.inj (hsu.symm.trans hsv)
    · intro hstuck hfree
      rw [hstuck] at hsu
      rw [hfree] at hsv
      exact Except.ok.inj (hsu.symm.trans (summary_asStuck hsv))

end Status

namespace Store

variable {s : Store} {scope : Scope} {i : String}

theorem statuses_ok {threshold : Int} {answer : List BlobStatus} {s' : Store}
    (h : (log.statuses scope threshold).run s = (.ok answer, s')) :
    Status.reconstruct (s.eventsIn scope) (s.sightingsIn scope) threshold = .ok answer := by
  obtain ⟨-, -, hr⟩ := statuses_eq_ok_iff.mp (congrArg Prod.fst h)
  exact hr

theorem rows_narrow {ρ : Type} (ingestOf : ρ → String) (time id : ρ → Nat) (h : inScope scope i = true)
    (rows : List ρ) :
    ((rows.filter fun r => inScope (.exactly i) (ingestOf r)).mergeSort fun r t =>
        placedBefore (time r, id r) (time t, id t)) =
      ((rows.filter fun r => inScope scope (ingestOf r)).mergeSort fun r t =>
        placedBefore (time r, id r) (time t, id t)).filter fun r => ingestOf r == i := by
  have hf : ((rows.filter fun r => inScope scope (ingestOf r)).filter fun r => ingestOf r == i) =
      rows.filter fun r => inScope (.exactly i) (ingestOf r) := by
    rw [Lists.filter_filter_of_imp]
    · exact List.filter_congr fun r _ => BEq.comm
    · intro r hr
      rw [eq_of_beq hr]
      exact h
  rw [← hf]
  symm
  apply Sorting.filter_mergeSort
  · exact fun r t u => placedBefore_trans _ _ _
  · exact fun r t => placedBefore_total _ _

theorem eventsIn_narrow (s : Store) (h : inScope scope i = true) :
    s.eventsIn (.exactly i) = (s.eventsIn scope).filter fun e => e.ingestId == some i := by
  rw [eventsIn, rows_narrow EventRow.ingestId EventRow.time EventRow.id h, eventsIn, List.filter_map]
  rfl

theorem sightingsIn_narrow (s : Store) (h : inScope scope i = true) :
    s.sightingsIn (.exactly i) = (s.sightingsIn scope).filter fun x => x.ingestId == some i := by
  rw [sightingsIn, rows_narrow SightingRow.ingestId SightingRow.time SightingRow.id h, sightingsIn,
    List.filter_map]
  rfl

theorem isStuck_eventsIn (s : Store) (scope : Scope) (threshold : Int) (b : String) :
    Status.isStuck (s.eventsIn scope) threshold (some b) =
      decide (threshold < s.events.countP fun r => r.blobId == b && inScope scope r.ingestId) := by
  rw [Status.isStuck, eventsIn, List.countP_map, (List.mergeSort_perm _ _).countP_eq, List.countP_filter]
  rfl

theorem mem_eventsIn {e : Event} (h : e ∈ s.eventsIn scope) :
    ∃ j, e.ingestId = some j ∧ inScope scope j = true := by
  obtain ⟨r, hr, rfl⟩ := List.mem_map.mp h
  exact ⟨r.ingestId, rfl, (List.mem_filter.mp (List.mem_mergeSort.mp hr)).2⟩

theorem inScope_startingWith {p : String} (hp : ∀ c ∈ p.toList, c.toNat ≠ 0) (j : String) :
    inScope (.startingWith p) j = Like.begins p.toList j.toList :=
  Like.isLike_patternOf hp j.toList

/-- A question about the ingestions whose ids start with a text, and one about an ingestion, agree. The wide
answer has entries of no other ingestions; it has an entry of a blob in an ingestion just when the answer
about that ingestion has; and the entries are equal, unless the blob is stuck only because of the wider
scope. Then the wide one is what is told of a stuck blob. -/
theorem statuses_narrow {t : Store} (ht : t.tables = s.tables) {p : String}
    (hp : ∀ c ∈ p.toList, c.toNat ≠ 0) {threshold : Int} {wide narrow : List BlobStatus} {s' t' : Store}
    (hw : (log.statuses (.startingWith p) threshold).run s = (.ok wide, s'))
    (hn : (log.statuses (.exactly i) threshold).run t = (.ok narrow, t')) :
    (∀ u ∈ wide, ∃ j, u.ingestId = some j ∧ Like.begins p.toList j.toList = true) ∧
    (∀ c d, Like.isSpecial c = true → Like.alike c d = true → d = c) ∧
    (Like.begins p.toList i.toList = true → ∀ b : String,
      let own := s.events.countP fun r => r.blobId == b && r.ingestId == i
      let all := s.events.countP fun r => r.blobId == b && Like.begins p.toList r.ingestId.toList
      ((∃ u ∈ wide, u.key = (some b, some i)) ↔ ∃ v ∈ narrow, v.key = (some b, some i)) ∧
      ∀ u ∈ wide, ∀ v ∈ narrow, u.key = (some b, some i) → v.key = (some b, some i) →
        (all ≤ threshold ∨ threshold < own → u = v) ∧
        (own ≤ threshold → threshold < all → u = v.asStuck)) := by
  have hw := statuses_ok hw
  have hn := statuses_ok hn
  rw [eventsIn_congr ht, sightingsIn_congr ht] at hn
  refine ⟨?_, fun c d => Like.eq_of_alike_special, ?_⟩
  · intro u hu
    obtain ⟨hk, -⟩ := (Status.mem_reconstruct (s.stored_eventsIn _) (s.stored_sightingsIn _) hw).1 u hu
    rw [Status.keysOf, List.mem_eraseDups] at hk
    obtain ⟨e, he, hk⟩ := List.mem_map.mp hk
    obtain ⟨j, hj, hin⟩ := mem_eventsIn he
    have hu : u.ingestId = e.ingestId := congrArg Prod.snd hk.symm
    exact ⟨j, hu.trans hj, (inScope_startingWith hp j).symm.trans hin⟩
  · intro hi b own all
    have hin : inScope (.startingWith p) i = true := (inScope_startingWith hp i).trans hi
    have hall : Status.isStuck (s.eventsIn (.startingWith p)) threshold (some b) =
        decide (threshold < all) := by
      rw [isStuck_eventsIn]
      simp only [inScope_startingWith hp]
      rfl
    have hown : Status.isStuck (s.eventsIn (.exactly i)) threshold (some b) = decide (threshold < own) := by
      rw [isStuck_eventsIn]
      simp only [inScope, BEq.comm (a := i)]
      rfl
    have hle : own ≤ all := by
      apply List.countP_mono_left
      intro r _ hr
      rw [Bool.and_eq_true] at hr ⊢
      rw [eq_of_beq hr.2]
      exact ⟨hr.1, hi⟩
    rw [eventsIn_narrow s hin] at hn hown
    rw [sightingsIn_narrow s hin] at hn
    obtain ⟨hiff, hentries⟩ :=
      Status.reconstruct_narrow (s.stored_eventsIn _) (s.stored_sightingsIn _) hw hn (some b)
    rw [hall, hown] at hentries
    refine ⟨hiff, ?_⟩
    intro u hu v hv huk hvk
    obtain ⟨hsame, hstuck⟩ := hentries u hu v hv huk hvk
    constructor
    · intro h
      apply hsame
      rw [decide_eq_decide]
      omega
    · intro ho ha
      apply hstuck
      · exact decide_eq_true ha
      · exact decide_eq_false (by omega)

theorem statuses_narrow_of_stuck :
    let row (n : Nat) (i : String) : EventRow := ⟨n, "b", i, "HashComplete", "Success", [], n⟩
    let s : Store := ⟨[row 1 "i/1", row 2 "i/1", row 3 "I/2"], [⟨1, "b", "i/1", 4, "/f", 0⟩], .still 0, .none⟩
    ∃ w u v, (log.statuses (.startingWith "I/") 2).run s = (.ok [w, u], s) ∧
      (log.statuses (.exactly "i/1") 2).run s = (.ok [v], s) ∧ v.stuck = false ∧ v.history.length = 2 ∧
      u = v.asStuck := by
  intro row s
  let t (n : WallTime) : Timestamp := .withoutOffset n
  let w : BlobStatus :=
    ⟨some "b", some "I/2", t 3, t 3, [], none, [], none, none, [], [], [], true⟩
  let u : BlobStatus :=
    ⟨some "b", some "i/1", t 1, t 2, [some "/f"], some 4, [(some "/f", some 4)], none, none, [], [], [], true⟩
  let v : BlobStatus :=
    ⟨some "b", some "i/1", t 1, t 2, [some "/f"], some 4, [(some "/f", some 4)], none, none,
      [⟨t 1, "HashComplete", "Success"⟩, ⟨t 2, "HashComplete", "Success"⟩], [], [], false⟩
  have hw : (log.statuses (.startingWith "I/") 2).run s = (.ok [w, u], s) := by cbv
  have hn : (log.statuses (.exactly "i/1") 2).run s = (.ok [v], s) := by cbv
  obtain ⟨-, -, hentries⟩ := statuses_narrow (t := s) rfl (by simp) hw hn
  obtain ⟨-, hb⟩ := hentries (by decide) "b"
  exact ⟨w, u, v, hw, hn, rfl, rfl, (hb u (by simp) v (by simp) rfl rfl).2 (by decide) (by decide)⟩

/-- Up to the case of letters alone, an id need not start with the text: a noncharacter is not told apart
from the replacement character. -/
theorem statuses_of_noncharacter :
    let e : Event := ⟨some "b", some "\uFFFD", "HashComplete", "Success", .object [], none, none⟩
    ∃ s t, (log.insertEvent e).run (.empty (.still 0)) = (.ok (), s) ∧
      ((log.statuses (.exactly "\uFFFD") 100).run s).1 = .ok [t] ∧
      ((log.statuses (.startingWith "\uFFFF") 100).run s).1 = .ok [t] ∧ t.ingestId = some "\uFFFD" ∧
      ("\uFFFF".toList.map Char.toLower).isPrefixOf ("\uFFFD".toList.map Char.toLower) = false := by
  refine ⟨⟨[⟨1, "b", "\uFFFD", "HashComplete", "Success", [], 0⟩], [], .still 0, .none⟩,
    ⟨some "b", some "\uFFFD", .withoutOffset 0, .withoutOffset 0, [], none, [], none, none,
      [⟨.withoutOffset 0, "HashComplete", "Success"⟩], [], [], false⟩, rfl, ?_, ?_, rfl, by decide⟩
  · cbv
  · cbv
end Store
end Intake
