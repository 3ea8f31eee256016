import Mathlib.Data.List.Nodup

/-!
# Sorted lists

Sorting by a total preorder keeps the order of equals. So elements can be left out before or after, and
two preorders sort alike if they differ on no pair that stands in the order of the list.
-/
namespace Intake.Sorting

variable {α : Type} {le le' : α → α → Bool}

theorem mergeSort_cons_split (trans : ∀ a b c, le a b → le b c → le a c)
    (total : ∀ a b, le a b || le b a) (a : α) (l : List α) :
    ∃ l₁ l₂, (a :: l).mergeSort le = l₁ ++ a :: l₂ ∧ l.mergeSort le = l₁ ++ l₂ ∧
      (∀ b ∈ l₁, le a b = false) ∧ ∀ b ∈ l₂, le a b = true := by
  obtain ⟨l₁, l₂, h, h', hl⟩ := List.mergeSort_cons trans total a l
  have hs := List.pairwise_mergeSort trans total (a :: l)
  rw [h, List.pairwise_append] at hs
  refine ⟨l₁, l₂, h, h', ?_, (List.pairwise_cons.mp hs.2.1).1⟩
  intro b hb
  simpa using hl b hb

private theorem split_unique {q : α → Bool} {l₁ l₂ m₁ m₂ : List α} (h : l₁ ++ l₂ = m₁ ++ m₂)
    (hl₁ : ∀ b ∈ l₁, q b = false) (hl₂ : ∀ b ∈ l₂, q b = true) (hm₁ : ∀ b ∈ m₁, q b = false)
    (hm₂ : ∀ b ∈ m₂, q b = true) : l₁ = m₁ ∧ l₂ = m₂ := by
  have hf := congrArg (List.filter q) h
  have hn := congrArg (List.filter fun b => !q b) h
  simp only [List.filter_append] at hf hn
  rw [List.filter_eq_nil_iff.mpr (by simpa using hl₁), List.filter_eq_self.mpr hl₂,
    List.filter_eq_nil_iff.mpr (by simpa using hm₁), List.filter_eq_self.mpr hm₂] at hf
  rw [List.filter_eq_self.mpr (by simpa using hl₁), List.filter_eq_nil_iff.mpr (by simpa using hl₂),
    List.filter_eq_self.mpr (by simpa using hm₁), List.filter_eq_nil_iff.mpr (by simpa using hm₂)] at hn
  exact ⟨by simpa using hn, by simpa using hf⟩

theorem mergeSort_cons_of_split (trans : ∀ a b c, le a b → le b c → le a c)
    (total : ∀ a b, le a b || le b a) {a : α} {l l₁ l₂ : List α} (h : l.mergeSort le = l₁ ++ l₂)
    (h₁ : ∀ b ∈ l₁, le a b = false) (h₂ : ∀ b ∈ l₂, le a b = true) :
    (a :: l).mergeSort le = l₁ ++ a :: l₂ := by
  obtain ⟨m₁, m₂, hm, hm', hm₁, hm₂⟩ := mergeSort_cons_split trans total a l
  obtain ⟨rfl, rfl⟩ := split_unique (h.symm.trans hm') h₁ h₂ hm₁ hm₂
  exact hm

theorem filter_mergeSort (trans : ∀ a b c, le a b → le b c → le a c)
    (total : ∀ a b, le a b || le b a) (p : α → Bool) (l : List α) :
    (l.mergeSort le).filter p = (l.filter p).mergeSort le := by
  induction l with
  | nil => simp
  | cons a l ih =>
    obtain ⟨l₁, l₂, h, h', h₁, h₂⟩ := mergeSort_cons_split trans total a l
    rw [h', List.filter_append] at ih
    by_cases hp : p a = true
    · rw [h, List.filter_append, List.filter_cons_of_pos hp, List.filter_cons_of_pos hp]
      refine (mergeSort_cons_of_split trans total ih.symm ?_ ?_).symm
      · exact fun b hb => h₁ b ((List.mem_filter.mp hb).1)
      · exact fun b hb => h₂ b ((List.mem_filter.mp hb).1)
    · rw [h, List.filter_append, List.filter_cons_of_neg hp, List.filter_cons_of_neg hp, ih]

theorem mergeSort_snoc (trans : ∀ a b c, le a b → le b c → le a c)
    (total : ∀ a b, le a b || le b a) {a : α} {l : List α} (h : ∀ b ∈ l, le b a = true) :
    (l ++ [a]).mergeSort le = l.mergeSort le ++ [a] := by
  induction l with
  | nil => simp
  | cons b l ih =>
    obtain ⟨hb, hl⟩ := List.forall_mem_cons.mp h
    obtain ⟨l₁, l₂, hs, hs', h₁, h₂⟩ := mergeSort_cons_split trans total b l
    have hi : (l ++ [a]).mergeSort le = l₁ ++ (l₂ ++ [a]) := by
      rw [ih hl, hs', List.append_assoc]
    have h₂' : ∀ c ∈ l₂ ++ [a], le b c = true := by
      intro c hc
      rcases List.mem_append.mp hc with hc | hc
      · exact h₂ c hc
      · rwa [List.mem_singleton.mp hc]
    rw [List.cons_append, mergeSort_cons_of_split trans total hi h₁ h₂', hs, List.append_assoc,
      List.cons_append]

theorem mergeSort_filter_mergeSort (trans : ∀ a b c, le a b → le b c → le a c)
    (total : ∀ a b, le a b || le b a) (p : α → Bool) (l : List α) :
    ((l.mergeSort le).filter p).mergeSort le = (l.filter p).mergeSort le := by
  rw [filter_mergeSort trans total]
  exact List.mergeSort_of_pairwise (List.pairwise_mergeSort trans total _)

/-- Two preorders that agree on every pair in the order of the list sort it alike. -/
theorem mergeSort_congr_of_pairwise (trans : ∀ a b c, le a b → le b c → le a c)
    (total : ∀ a b, le a b || le b a) (trans' : ∀ a b c, le' a b → le' b c → le' a c)
    (total' : ∀ a b, le' a b || le' b a) {l : List α} (h : l.Pairwise fun a b => le a b = le' a b) :
    l.mergeSort le = l.mergeSort le' := by
  induction l with
  | nil => simp
  | cons a l ih =>
    obtain ⟨ha, hl⟩ := List.pairwise_cons.mp h
    -- Both preorders put `a` at the same place of the rest, which they sort alike.
    obtain ⟨l₁, l₂, hs, hs', h₁, h₂⟩ := mergeSort_cons_split trans total a l
    have hm : ∀ b ∈ l₁ ++ l₂, b ∈ l := fun b hb => by rwa [← hs', List.mem_mergeSort] at hb
    rw [hs]
    refine (mergeSort_cons_of_split trans' total' (ih hl ▸ hs') ?_ ?_).symm
    · exact fun b hb => (ha b (hm b (List.mem_append_left _ hb))).symm.trans (h₁ b hb)
    · exact fun b hb => (ha b (hm b (List.mem_append_right _ hb))).symm.trans (h₂ b hb)

/-- If elements that can stand on either side of each other agree in something that no two of them have in
common, a list is sorted alike however it is arranged. -/
theorem mergeSort_eq_of_perm {κ : Type} {key : α → κ} (trans : ∀ a b c, le a b → le b c → le a c)
    (total : ∀ a b, le a b || le b a) {l l' : List α} (hn : (l.map key).Nodup)
    (hkey : ∀ a ∈ l, ∀ b ∈ l, le a b → le b a → key a = key b) (h : l.Perm l') :
    l.mergeSort le = l'.mergeSort le := by
  have hp : (l.mergeSort le).Perm (l'.mergeSort le) :=
    (List.mergeSort_perm l le).trans (h.trans (List.mergeSort_perm l' le).symm)
  refine hp.eq_of_pairwise ?_ (List.pairwise_mergeSort trans total l)
    (List.pairwise_mergeSort trans total l')
  intro a b ha hb hab hba
  have ha : a ∈ l := List.mem_mergeSort.mp ha
  have hb : b ∈ l := h.mem_iff.mpr (List.mem_mergeSort.mp hb)
  exact List.inj_on_of_nodup_map hn ha hb (hkey a ha b hb hab hba)

end Intake.Sorting
