import Intake.Proofs.Status.Summary
import Mathlib

/-!
# The places of a blob

Every path under which a blob was seen is told once, with the size that was seen there last. Paths stand in
the order in which they first came up, and whether the blob is stuck makes no difference.
-/
namespace Intake

/-- Rows are the given sightings in the order of their times. Those of one time stay as they were given, and
those without a time come last. -/
structure Status.InTimeOrder (given rows : List Sighting) : Prop where
  perm : rows.Perm given
  sorted : rows.Pairwise fun r s => ∀ u ∈ s.time, ∃ t ∈ r.time, t.instant ≤ u.instant
  stable : ∀ k, rows.filter (fun r => r.time.map Timestamp.instant == k) =
    given.filter fun r => r.time.map Timestamp.instant == k

/-- What a status tells of paths and sizes agrees with itself and with rows that are in order. -/
structure BlobStatus.Tallies (rows : List Sighting) (t : BlobStatus) : Prop where
  nodup : t.paths.Nodup
  mem : ∀ p, p ∈ t.paths ↔ ∃ r ∈ rows, r.path = p
  /-- Paths stand in the order of their first rows. -/
  order : t.paths.Pairwise fun p q => (rows.map Sighting.path).idxOf p < (rows.map Sighting.path).idxOf q
  keys : t.sizes.map Prod.fst = t.paths
  /-- The size under a path is that of the last row with the path. -/
  sizes : ∀ before r after, rows = before ++ r :: after → (∀ s ∈ after, s.path ≠ r.path) →
    t.sizes.lookup r.path = some r.size
  size : ∀ r ∈ rows.getLast?, t.sizes.lookup r.path = some t.size
  /-- A row has a size, so that none is told only of a blob without rows. -/
  absent : (∀ r ∈ rows, r.size.isSome = true) → (t.size = none ↔ rows = [])

namespace Lists

variable {α : Type} [BEq α] [LawfulBEq α]

theorem pairwise_idxOf_eraseDups (l : List α) : l.eraseDups.Pairwise fun a b => l.idxOf a < l.idxOf b := by
  induction l using List.reverseRecOn with
  | nil => simp
  | append_singleton l a ih =>
    have hold : ∀ b ∈ l.eraseDups, (l ++ [a]).idxOf b = l.idxOf b := by
      intro b hb
      rw [List.idxOf_append, if_pos (List.mem_eraseDups.mp hb)]
    have hkept : l.eraseDups.Pairwise fun b c => (l ++ [a]).idxOf b < (l ++ [a]).idxOf c := by
      apply ih.imp_of_mem
      intro b c hb hc hlt
      rwa [hold b hb, hold c hc]
    rw [eraseDups_snoc]
    split
    · exact hkept
    · rename_i ha
      rw [List.pairwise_append]
      refine ⟨hkept, List.pairwise_singleton _ _, ?_⟩
      intro b hb c hc
      have hlt : l.idxOf b < l.length := List.idxOf_lt_length_of_mem (List.mem_eraseDups.mp hb)
      rw [List.mem_singleton.mp hc, hold b hb, List.idxOf_append, if_neg ha]
      omega

end Lists

namespace Status

variable {p q : Option String} {size : Option Int} {sizes : List (Option String × Option Int)}

theorem keys_putSize (p : Option String) (size : Option Int) (sizes : List (Option String × Option Int)) :
    (putSize p size sizes).map Prod.fst =
      if p ∈ sizes.map Prod.fst then sizes.map Prod.fst else sizes.map Prod.fst ++ [p] := by
  induction sizes with
  | nil => simp [putSize]
  | cons entry rest ih =>
    obtain ⟨q, s⟩ := entry
    by_cases h : q = p
    · simp [putSize, h]
    · have hp : p ≠ q := Ne.symm h
      simp only [putSize, h, if_false, List.map_cons, ih, List.mem_cons, hp, false_or]
      split <;> simp

theorem lookup_putSize (p q : Option String) (size : Option Int) (sizes : List (Option String × Option Int)) :
    (putSize p size sizes).lookup q = if q = p then some size else sizes.lookup q := by
  induction sizes with
  | nil => simp [putSize, Lists.lookup_cons_eq_ite]
  | cons entry rest ih =>
    obtain ⟨o, s⟩ := entry
    by_cases h : o = p
    · subst h
      by_cases hq : q = o <;> simp [putSize, Lists.lookup_cons_eq_ite, hq]
    · by_cases hq : q = o
      · subst hq
        simp [putSize, h]
      · simp [putSize, Lists.lookup_cons_eq_ite, h, hq, ih]

theorem sizesOf_snoc (rs : List Sighting) (r : Sighting) :
    sizesOf (rs ++ [r]) = putSize r.path r.size (sizesOf rs) := by
  simp [sizesOf]

theorem keys_sizesOf (rs : List Sighting) : (sizesOf rs).map Prod.fst = (rs.map Sighting.path).eraseDups := by
  induction rs using List.reverseRecOn with
  | nil => rfl
  | append_singleton rs r ih =>
    have hm : r.path ∈ (rs.map Sighting.path).eraseDups ↔ r.path ∈ rs.map Sighting.path := List.mem_eraseDups
    rw [sizesOf_snoc, keys_putSize, ih, List.map_append, List.map_singleton, Lists.eraseDups_snoc]
    simp only [hm]

/-- The last row with a path has the size under it. -/
theorem lookup_sizesOf (before : List Sighting) (r : Sighting) (after : List Sighting)
    (h : ∀ s ∈ after, s.path ≠ r.path) : (sizesOf (before ++ r :: after)).lookup r.path = some r.size := by
  induction after using List.reverseRecOn with
  | nil => rw [sizesOf_snoc, lookup_putSize, if_pos rfl]
  | append_singleton after s ih =>
    have hs : r.path ≠ s.path := fun e => h s (by simp) e.symm
    rw [← List.cons_append, ← List.append_assoc, sizesOf_snoc, lookup_putSize, if_neg hs]
    exact ih fun s hs => h s (List.mem_append_left _ hs)

theorem size_of_getLast {rs : List Sighting} {r : Sighting} (h : rs.getLast? = some r) :
    (sizesOf rs).lookup r.path = some r.size := by
  obtain ⟨before, rfl⟩ := List.getLast?_eq_some_iff.mp h
  exact lookup_sizesOf before r [] (by simp)

theorem inTimeOrder_mergeSort (rs : List Sighting) : InTimeOrder rs (rs.mergeSort sightingBefore) := by
  constructor
  · exact List.mergeSort_perm rs sightingBefore
  · apply (List.pairwise_mergeSort sightingBefore_trans sightingBefore_total rs).imp
    intro r s h u hu
    simp only [sightingBefore, Option.mem_def.mp hu] at h
    cases hr : r.time with
    | none => simp [hr] at h
    | some t => exact ⟨t, rfl, by simpa [hr] using h⟩
  · intro k
    rw [Sorting.filter_mergeSort sightingBefore_trans sightingBefore_total]
    -- Rows of one time may stand in any order, so sorting them leaves them alone.
    apply List.mergeSort_of_pairwise
    rw [List.pairwise_filter]
    apply List.pairwise_of_forall
    intro r s hr hs
    have hrs := (beq_iff_eq.mp hr).trans (beq_iff_eq.mp hs).symm
    cases ht : r.time with
    | none =>
      have hu : s.time = none := by simpa [ht, eq_comm] using hrs
      simp [sightingBefore, hu]
    | some t =>
      obtain ⟨u, hu, hi⟩ : ∃ u, s.time = some u ∧ u.instant = t.instant := by simpa [ht, eq_comm] using hrs
      simp [sightingBefore, ht, hu, hi]

theorem places_of_summary {b i : Option String} {es : List Event} {rs : List Sighting} {stuck : Bool}
    {t : BlobStatus} (h : summary b i es rs stuck = .ok t) :
    t.paths = (sizesOf rs).map Prod.fst ∧ t.sizes = sizesOf rs ∧ t.size = rs.getLast?.bind Sighting.size := by
  cases stuck with
  | false =>
    have hp := parts_of_summary h
    exact ⟨hp.paths, hp.sizes, hp.size⟩
  | true =>
    cases es with
    | nil => cases h
    | cons e es =>
      cases h
      exact ⟨rfl, rfl, rfl⟩

theorem tallies_of_summary {b i : Option String} {es : List Event} {rs : List Sighting} {stuck : Bool}
    {t : BlobStatus} (h : summary b i es rs stuck = .ok t) : t.Tallies rs := by
  obtain ⟨hpaths, hsizes, hsize⟩ := places_of_summary h
  rw [keys_sizesOf] at hpaths
  constructor
  · rw [hpaths]
    exact Lists.nodup_eraseDups _
  · intro p
    simp [hpaths]
  · rw [hpaths]
    exact Lists.pairwise_idxOf_eraseDups _
  · rw [hsizes, hpaths, keys_sizesOf]
  · intro before r after hrs hafter
    rw [hsizes, hrs]
    exact lookup_sizesOf before r after hafter
  · intro r hr
    rw [hsizes, hsize, hr]
    exact size_of_getLast hr
  · intro hs
    rw [hsize, Option.bind_eq_none_iff]
    constructor
    · intro hnone
      rw [← List.getLast?_eq_none_iff, Option.eq_none_iff_forall_ne_some]
      intro r hr
      have hsome := hs r (List.mem_of_getLast? hr)
      simp [hnone r hr] at hsome
    · rintro rfl
      simp

theorem exists_stuck_summary {b i : Option String} {es : List Event} {rs : List Sighting} {stuck : Bool}
    {t : BlobStatus} (h : summary b i es rs stuck = .ok t) : ∃ t', summary b i es rs true = .ok t' := by
  cases es with
  | nil => cases h
  | cons e es => exact ⟨outline b i e (e :: es) rs true, rfl⟩

/-- The paths and the sizes of a status agree with each other and with the sightings in the order of their
times. They are the same for a blob that is stuck, which has a status whenever it has one when it is not. -/
theorem blobStatus_tallies {b i : Option String} {es : List Event} {rs : List Sighting} {stuck : Bool}
    {t : BlobStatus} (h : blobStatus b i es rs stuck = .ok t) :
    ∃ rows, InTimeOrder rs rows ∧ t.Tallies rows ∧ (∃ t', blobStatus b i es rs true = .ok t') ∧
      ∀ stuck' t', blobStatus b i es rs stuck' = .ok t' →
        t'.paths = t.paths ∧ t'.sizes = t.sizes ∧ t'.size = t.size := by
  obtain ⟨ho, hs⟩ := blobStatus_eq_ok_iff.mp h
  refine ⟨rs.mergeSort sightingBefore, inTimeOrder_mergeSort rs, tallies_of_summary hs, ?_, ?_⟩
  · obtain ⟨t', hs'⟩ := exists_stuck_summary hs
    exact ⟨t', blobStatus_eq_ok_iff.mpr ⟨ho, hs'⟩⟩
  · intro stuck' t' h'
    obtain ⟨hpaths, hsizes, hsize⟩ := places_of_summary hs
    obtain ⟨hpaths', hsizes', hsize'⟩ := places_of_summary (blobStatus_eq_ok_iff.mp h').2
    exact ⟨hpaths'.trans hpaths.symm, hsizes'.trans hsizes.symm, hsize'.trans hsize.symm⟩

/-- Sightings under repeating paths, two at one time and one at no time. -/
theorem blobStatus_tallies_of_repeated :
    let seen (path : String) (size : Int) (time : Option WallTime) : Sighting :=
      ⟨some "i", some "b", some size, some path, time.map Timestamp.withoutOffset⟩
    let es : List Event := [⟨some "b", some "i", "HashComplete", "Success", .object [], some (.withoutOffset 1), none⟩]
    let rs := [seen "/g" 4 none, seen "/f" 1 (some 7), seen "/g" 2 (some 7), seen "/f" 3 (some 9), seen "/h" 5 (some 2)]
    ∃ t rows, blobStatus (some "b") (some "i") es rs false = .ok t ∧ InTimeOrder rs rows ∧ t.Tallies rows ∧
      t.sizes = [(some "/h", some 5), (some "/f", some 3), (some "/g", some 4)] ∧ t.size = some 4 := by
  intro seen es rs
  let t : BlobStatus := ⟨some "b", some "i", .withoutOffset 1, .withoutOffset 1,
    [some "/h", some "/f", some "/g"], some 4, [(some "/h", some 5), (some "/f", some 3), (some "/g", some 4)],
    none, none, [⟨.withoutOffset 1, "HashComplete", "Success"⟩], [], [], false⟩
  have h : blobStatus (some "b") (some "i") es rs false = .ok t := by cbv
  obtain ⟨rows, hrows, ht, -⟩ := blobStatus_tallies h
  exact ⟨t, rows, h, hrows, ht, rfl, rfl⟩

end Status
end Intake
