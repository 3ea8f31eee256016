import Intake.Proofs.Status.Permutation
import Mathlib

/-!
# What an answer looks like

An answer has one entry for each blob in each ingestion that there is an event of. The entry is built from
that blob's events and sightings in that ingestion, and only whether it is stuck depends on other ingestions.
-/
namespace Intake.Status

/-- Both names are given, and the first is smaller. -/
def NameLess (a b : Option String) : Prop := ∃ x ∈ a, ∃ y ∈ b, x < y

/-- Whether a status stands before another. Later starts come first, then smaller blobs, and then smaller
ingestions. -/
def Precedes (s t : BlobStatus) : Prop :=
  s.start.Comparable t.start ∧ (t.start.instant < s.start.instant ∨
    s.start.instant = t.start.instant ∧ (NameLess s.blobId t.blobId ∨
      s.blobId = t.blobId ∧ NameLess s.ingestId t.ingestId))

/-- How an answer follows from events and sightings. -/
structure AccountsFor (es : List Event) (rs : List Sighting) (threshold : Int) (answer : List BlobStatus) :
    Prop where
  /-- There is one entry for each blob in each ingestion, and none without an event. -/
  nodup : (answer.map BlobStatus.key).Nodup
  keys : ∀ key, key ∈ answer.map BlobStatus.key ↔ ∃ e ∈ es, e.key = key
  order : answer.Pairwise Precedes
  entry : ∀ t ∈ answer, blobStatus t.blobId t.ingestId (es.filter fun e => e.key == t.key)
    (rs.filter fun r => r.key == t.key) t.stuck = .ok t
  stuck : ∀ t ∈ answer, t.stuck = true ↔ threshold < (es.countP fun e => e.blobId == t.blobId : Nat)
  /-- A blob that is stuck stays so in its ingestions, old and new, when there are more events. -/
  lasting : ∀ es' rs' answer', es.Subperm es' → reconstruct es' rs' threshold = .ok answer' →
    ∀ t ∈ answer, t.stuck = true → t.key ∈ answer'.map BlobStatus.key ∧
      ∀ t' ∈ answer', t'.blobId = t.blobId → t'.stuck = true

theorem nameLess_of_lt {a b : Option String} (hc : namesComparable a b = true)
    (h : a.getD "" < b.getD "") : NameLess a b := by
  cases a with
  | none =>
    cases b with
    | none => exact absurd h (lt_irrefl _)
    | some y => cases hc
  | some x =>
    cases b with
    | none => cases hc
    | some y => exact ⟨x, rfl, y, rfl, h⟩

theorem nameLess_or_eq {a b : Option String} (hc : namesComparable a b = true)
    (h : a.getD "" ≤ b.getD "") : NameLess a b ∨ a = b := by
  obtain h | h := lt_or_eq_of_le h
  · exact .inl (nameLess_of_lt hc h)
  · exact .inr (eq_of_namesComparable hc h)

theorem precedes_of_statusBefore {s t : BlobStatus} (hk : keysComparable s t = true)
    (hc : s.start.Comparable t.start) (hne : s.key ≠ t.key) (h : statusBefore s t = true) :
    Precedes s t := by
  refine ⟨hc, ?_⟩
  rw [keysComparable, Bool.and_eq_true, Bool.or_eq_true, bne_iff_ne] at hk
  obtain h | ⟨hs, h | ⟨hb, hi⟩⟩ := statusBefore_iff.mp h
  · exact .inl h
  · exact .inr ⟨hs, .inl (nameLess_of_lt hk.1 h)⟩
  · refine .inr ⟨hs, ?_⟩
    obtain h | hb := nameLess_or_eq hk.1 hb
    · exact .inl h
    · have hn : namesComparable s.ingestId t.ingestId = true := hk.2.resolve_left fun h => h hb
      obtain h | hi := nameLess_or_eq hn hi
      · exact .inr ⟨hb, h⟩
      · exact absurd (Prod.ext hb hi) hne

theorem stuck_of_summary {b i : Option String} {es : List Event} {rs : List Sighting} {stuck : Bool}
    {t : BlobStatus} (h : summary b i es rs stuck = .ok t) : t.stuck = stuck := by
  cases stuck with
  | false => exact (parts_of_summary h).stuck
  | true =>
    cases es with
    | nil => cases h
    | cons e es =>
      cases h
      rfl

theorem statusOf_stuck {es : List Event} {rs : List Sighting} {threshold : Int}
    {key : Option String × Option String} {t : BlobStatus} (h : statusOf es rs threshold key = .ok t) :
    t.stuck = isStuck es threshold key.1 :=
  stuck_of_summary (blobStatus_eq_ok_iff.mp h).2

theorem isStuck_iff {es : List Event} {threshold : Int} {b : Option String} :
    isStuck es threshold b = true ↔ threshold < (es.countP fun e => e.blobId == b : Nat) :=
  decide_eq_true_iff

theorem isStuck_mono {es es' : List Event} (h : es.Subperm es') {threshold : Int} {b : Option String}
    (hs : isStuck es threshold b = true) : isStuck es' threshold b = true := by
  rw [isStuck_iff] at hs ⊢
  have hle := h.countP_le (fun e => e.blobId == b)
  omega

theorem pairwise_precedes {es : List Event} {rs : List Sighting} {threshold : Int} {answer : List BlobStatus}
    (h : reconstruct es rs threshold = .ok answer) : answer.Pairwise Precedes := by
  have hn : (answer.map BlobStatus.key).Nodup := (entries_of_reconstruct h).1.nodup_iff.mpr (Lists.nodup_eraseDups _)
  obtain ⟨ts, -, -, ho⟩ := reconstruct_ok h
  obtain ⟨hc, rfl⟩ := orderStatuses_ok ho
  have hp := List.pairwise_mergeSort statusBefore_trans statusBefore_total ts
  refine (hp.and (List.pairwise_map.mp hn)).imp_of_mem fun {s t} hs ht ⟨hb, hne⟩ => ?_
  obtain ⟨hk, hc⟩ := hc s (List.mem_mergeSort.mp hs) t (List.mem_mergeSort.mp ht)
  exact precedes_of_statusBefore hk hc hne hb

/-- Each blob in each ingestion has one entry, built from what is about it alone. -/
theorem reconstruct_accounts {es : List Event} {rs : List Sighting} {threshold : Int}
    {answer : List BlobStatus} (h : reconstruct es rs threshold = .ok answer) :
    AccountsFor es rs threshold answer := by
  obtain ⟨hp, hs⟩ := entries_of_reconstruct h
  constructor
  · exact hp.nodup_iff.mpr (Lists.nodup_eraseDups _)
  · intro key
    rw [hp.mem_iff, mem_keysOf]
  · exact pairwise_precedes h
  · intro t ht
    rw [statusOf_stuck (hs t ht)]
    exact hs t ht
  · intro t ht
    rw [statusOf_stuck (hs t ht)]
    exact isStuck_iff
  · intro es' rs' answer' hsub h' t ht hstuck
    obtain ⟨hp', hs'⟩ := entries_of_reconstruct h'
    rw [statusOf_stuck (hs t ht)] at hstuck
    constructor
    · obtain ⟨e, he, hk⟩ := mem_keysOf.mp (hp.mem_iff.mp (List.mem_map_of_mem ht))
      exact hp'.mem_iff.mpr (mem_keysOf.mpr ⟨e, hsub.subset he, hk⟩)
    · intro t' ht' hb
      have hkey : t'.key.1 = t.key.1 := hb
      rw [statusOf_stuck (hs' t' ht'), hkey]
      exact isStuck_mono hsub hstuck

theorem reconstruct_accounts_of_ties :
    let event (b i : String) (w : WallTime) (offset : Int) : Event :=
      ⟨some b, some i, "IngestFile", "Started", .object [], some ⟨w, some offset⟩, none⟩
    let es := [event "b" "i" 5 0, event "a" "j" 1000005 1, event "a" "i" 5 0, event "c" "j" 9 0]
    let rs : List Sighting := [⟨some "i", some "d", some 7, some "/f", none⟩]
    ∃ answer, reconstruct es rs 1 = .ok answer ∧ AccountsFor es rs 1 answer ∧
      answer.map (fun t => (t.key, t.stuck)) = [((some "c", some "j"), false), ((some "a", some "i"), true),
        ((some "a", some "j"), true), ((some "b", some "i"), false)] := by
  intro event es rs
  let entry (b i : String) (t : Timestamp) (history : List HistoryItem) (stuck : Bool) : BlobStatus :=
    ⟨some b, some i, t, t, [], none, [], none, none, history, [], [], stuck⟩
  let started (w : WallTime) : List HistoryItem := [⟨⟨w, some 0⟩, "IngestFile", "Started"⟩]
  let answer := [entry "c" "j" ⟨9, some 0⟩ (started 9) false, entry "a" "i" ⟨5, some 0⟩ [] true,
    entry "a" "j" ⟨1000005, some 1⟩ [] true, entry "b" "i" ⟨5, some 0⟩ (started 5) false]
  have h : reconstruct es rs 1 = .ok answer := by
    unfold answer es rs event entry started
    cbv
  exact ⟨answer, h, reconstruct_accounts h, rfl⟩

end Intake.Status
