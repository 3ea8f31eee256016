import Intake.Transcript
import Mathlib.Data.List.Chain
import Mathlib.Data.List.Sort

/-!
# Picking lines greedily

Of lines that come at some times the first one is picked, and then each one that comes more than a throttle
after the last one picked. This determines which lines are picked, whatever the times are. They may repeat, go
back or be no numbers at all.
-/
namespace Intake.Transcript

/-- Of the lines picked, line `m` is the last one before line `j`. -/
structure LastBefore (picked : List Nat) (j m : Nat) : Prop where
  mem : m ∈ picked
  lt : m < j
  le : ∀ i ∈ picked, i < j → i ≤ m

/-- Of the first `n` lines, these are the ones that are picked greedily. -/
structure Greedy (throttle : Float) (time : Nat → Float) (n : Nat) (picked : List Nat) : Prop where
  increasing : picked.Pairwise (· < ·)
  bound : ∀ j ∈ picked, j < n
  first : 0 < n → 0 ∈ picked
  mem_iff : ∀ j m, j < n → LastBefore picked j m → (j ∈ picked ↔ throttle < time j - time m)

/-- The lines that are picked when each one is picked that is due. -/
def picks (throttle : Float) (time : Nat → Float) : Nat → List Nat
  | 0 => []
  | n + 1 =>
    let picked := picks throttle time n
    if due throttle (picked.getLast?.map time) (time n) then picked ++ [n] else picked

variable {throttle : Float} {time : Nat → Float} {n j k m : Nat} {picked other : List Nat}

theorem exists_lastBefore (h : 0 ∈ picked) (hj : 0 < j) : ∃ m, LastBefore picked j m := by
  induction j with
  | zero => exact absurd hj (Nat.lt_irrefl 0)
  | succ j ih =>
    by_cases hm : j ∈ picked
    · exact ⟨j, hm, Nat.lt_succ_self j, fun i _ hi => Nat.le_of_lt_succ hi⟩
    · have hne : j ≠ 0 := fun hz => hm (hz ▸ h)
      obtain ⟨m, hmem, hlt, hle⟩ := ih (Nat.pos_of_ne_zero hne)
      refine ⟨m, hmem, Nat.lt_succ_of_lt hlt, fun i hi hlt => ?_⟩
      have hij : i ≠ j := fun he => hm (he ▸ hi)
      exact hle i hi (by omega)

theorem LastBefore.congr (h : ∀ i < j, i ∈ picked ↔ i ∈ other) (hm : LastBefore picked j m) :
    LastBefore other j m :=
  ⟨(h m hm.lt).mp hm.mem, hm.lt, fun i hi hlt => hm.le i ((h i hlt).mpr hi) hlt⟩

theorem LastBefore.getLast? (hp : picked.Pairwise (· < ·)) (hb : ∀ i ∈ picked, i < j)
    (h : LastBefore picked j m) : picked.getLast? = some m := by
  rcases List.eq_nil_or_concat picked with rfl | ⟨front, last, rfl⟩
  · cases h.mem
  · have hfront := (List.pairwise_append.mp (List.concat_eq_append ▸ hp)).2.2
    have hlast : last ≤ m := h.le last (by simp) (hb last (by simp))
    have hm : m ∈ front ∨ m = last := by simpa using h.mem
    rcases hm with hm | rfl
    · have := hfront m hm last (by simp)
      omega
    · simp

namespace Greedy

theorem pos (h : Greedy throttle time n picked) (hj : j < n) (hn : j ∉ picked) : 0 < j := by
  apply Nat.pos_of_ne_zero
  rintro rfl
  exact hn (h.first hj)

/-- The lines picked are the only ones that can be. -/
theorem unique (h : Greedy throttle time n picked) (h' : Greedy throttle time n other) : other = picked := by
  have hmem (j : Nat) (hj : j < n) : j ∈ other ↔ j ∈ picked := by
    -- Whether a line is picked depends on the ones before it.
    induction j using Nat.strongRecOn with
    | ind j ih =>
      have h0 : 0 < n := by omega
      rcases Nat.eq_zero_or_pos j with rfl | hpos
      · exact iff_of_true (h'.first h0) (h.first h0)
      · have hbefore (i : Nat) (hi : i < j) : i ∈ other ↔ i ∈ picked := ih i hi (by omega)
        obtain ⟨m, hm⟩ := exists_lastBefore (h'.first h0) hpos
        rw [h'.mem_iff j m hj hm, h.mem_iff j m hj (hm.congr hbefore)]
  apply h'.increasing.eq_of_mem_iff h.increasing
  intro j
  by_cases hj : j < n
  · exact hmem j hj
  · exact iff_of_false (fun hm => hj (h'.bound j hm)) fun hm => hj (h.bound j hm)

theorem nil : Greedy throttle time 0 [] :=
  ⟨.nil, nofun, nofun, nofun⟩

theorem next (h : Greedy throttle time n picked) :
    Greedy throttle time (n + 1)
      (if due throttle (picked.getLast?.map time) (time n) then picked ++ [n] else picked) := by
  have hn : n ∉ picked := fun hm => Nat.lt_irrefl n (h.bound n hm)
  generalize hd : due throttle (picked.getLast?.map time) (time n) = b
  have hmem (j : Nat) : j ∈ (if b then picked ++ [n] else picked) ↔ j ∈ picked ∨ (j = n ∧ b = true) := by
    cases b <;> simp
  have hbefore {j : Nat} (hj : j ≤ n) (i : Nat) (hi : i < j) :
      i ∈ (if b then picked ++ [n] else picked) ↔ i ∈ picked := by
    rw [hmem]
    exact or_iff_left fun ⟨he, _⟩ => by omega
  constructor
  · cases b with
    | false => exact h.increasing
    | true =>
      apply List.pairwise_append.mpr
      simpa using ⟨h.increasing, h.bound⟩
  · intro j hj
    rcases (hmem j).mp hj with hj | ⟨rfl, _⟩
    · exact Nat.lt_succ_of_lt (h.bound j hj)
    · exact Nat.lt_succ_self j
  · intro _
    rw [hmem]
    rcases Nat.eq_zero_or_pos n with rfl | hpos
    · have hnil : picked = [] := List.eq_nil_iff_forall_not_mem.mpr fun j hj => absurd (h.bound j hj) (by simp)
      rw [hnil] at hd
      exact .inr ⟨rfl, hd.symm⟩
    · exact .inl (h.first hpos)
  · intro j m hj hm
    have hold := hm.congr (hbefore (by omega))
    rcases Nat.lt_or_eq_of_le (Nat.le_of_lt_succ hj) with hlt | rfl
    · rw [hbefore (by omega) j hlt, h.mem_iff j m hlt hold]
    · rw [hold.getLast? h.increasing h.bound] at hd
      rw [hmem, ← hd]
      simp [hn, due]

theorem apart (h : Greedy throttle time n picked) :
    picked.IsChain fun m j => throttle < time j - time m := by
  rw [List.isChain_iff_forall_rel_of_append_cons_cons]
  intro m j front rest hp
  have hpair := h.increasing
  rw [hp, List.pairwise_append, List.pairwise_cons, List.pairwise_cons] at hpair
  obtain ⟨-, ⟨hm, hj, -⟩, hfront⟩ := hpair
  have hlast : LastBefore picked j m := by
    rw [hp]
    refine ⟨by simp, hm j (by simp), fun i hi hlt => ?_⟩
    rcases List.mem_append.mp hi with hi | hi
    · exact (hfront i hi m (by simp)).le
    · rcases List.mem_cons.mp hi with rfl | hi
      · exact Nat.le_refl i
      · rcases List.mem_cons.mp hi with rfl | hi
        · exact absurd hlt (Nat.lt_irrefl i)
        · have := hj i hi
          omega
  have hjmem : j ∈ picked := by simp [hp]
  exact (h.mem_iff j m (h.bound j hjmem) hlast).mp hjmem

theorem between (h : Greedy throttle time n picked) (hk : k < n) (hn : k ∉ picked) :
    ∃ m, LastBefore picked k m ∧ ¬throttle < time k - time m := by
  obtain ⟨m, hm⟩ := exists_lastBefore (h.first (by omega)) (h.pos hk hn)
  exact ⟨m, hm, fun hlt => hn ((h.mem_iff k m hk hm).mpr hlt)⟩

end Greedy

theorem greedy_picks (throttle : Float) (time : Nat → Float) (n : Nat) :
    Greedy throttle time n (picks throttle time n) := by
  induction n with
  | zero => exact .nil
  | succ n ih => exact ih.next

end Intake.Transcript
