import Intake.Text.Newline
import Mathlib

/-!
# Lines and their text

The lines of a text, joined by line feeds, are the text without the line feed at its end. Where a line ends,
the text can be taken apart, and the lines are those of the two parts.
-/
namespace Intake.Text

theorem unifyBreaks_cons {c : Char} (h : c ≠ '\r') (s : List Char) :
    unifyBreaks (c :: s) = c :: unifyBreaks s := by
  simp [unifyBreaks, h]

theorem unifyBreaks_of_not_mem {s : List Char} (h : '\r' ∉ s) : unifyBreaks s = s := by
  induction s with
  | nil => rfl
  | cons c s ih =>
    have hc : c ≠ '\r' := fun e => h (e ▸ List.mem_cons_self)
    rw [unifyBreaks_cons hc, ih fun m => h (List.mem_cons_of_mem _ m)]

theorem unifyBreaks_eq_nil_iff {s : List Char} : unifyBreaks s = [] ↔ s = [] := by
  constructor
  · intro h
    unfold unifyBreaks at h
    split at h
    · rfl
    · cases h
    · cases h
  · rintro rfl
    rfl

/-- Where a line ends, breaks are unified in front of it and behind it apart. -/
theorem exists_unifyBreaks_append (s : List Char) :
    ∃ u, ∀ t, unifyBreaks (s ++ '\n' :: t) = u ++ '\n' :: unifyBreaks t := by
  fun_induction unifyBreaks s with
  | case1 => exact ⟨[], fun t => unifyBreaks_cons (by decide) t⟩
  | case2 rest ih =>
    obtain ⟨u, hu⟩ := ih
    exact ⟨'\n' :: u, fun t => congrArg ('\n' :: ·) (hu t)⟩
  | case3 c rest hc ih =>
    obtain ⟨u, hu⟩ := ih
    by_cases hr : c = '\r'
    · subst hr
      cases rest with
      -- The return and the line feed are one break.
      | nil => exact ⟨[], fun t => rfl⟩
      | cons d rest =>
        have hd : d ≠ '\n' := fun e => hc rest rfl (e ▸ rfl)
        refine ⟨'\n' :: u, fun t => ?_⟩
        have h := hu t
        simpa [unifyBreaks, hd] using h
    · refine ⟨c :: u, fun t => ?_⟩
      rw [List.cons_append, unifyBreaks_cons hr, hu, List.cons_append]

/-- A text without the line feed at its end, if there is one. -/
def withoutLastBreak (s : List Char) : List Char := if s.getLast? = some '\n' then s.dropLast else s

theorem withoutLastBreak_cons (c : Char) {s : List Char} (h : s ≠ []) :
    withoutLastBreak (c :: s) = c :: withoutLastBreak s := by
  have hl : (c :: s).getLast? = s.getLast? := by
    obtain ⟨d, s, rfl⟩ := List.exists_cons_of_ne_nil h
    exact List.getLast?_cons_cons
  unfold withoutLastBreak
  rw [hl, List.dropLast_cons_of_ne_nil h]
  split_ifs <;> rfl

theorem lines_break (s : List Char) : lines ('\n' :: s) = [] :: lines s := if_pos rfl

theorem lines_cons_of_nil {c : Char} (hc : c ≠ '\n') {s : List Char} (h : lines s = []) :
    lines (c :: s) = [[c]] := by
  rw [lines, if_neg hc, h]

theorem lines_cons_of_cons {c : Char} (hc : c ≠ '\n') {s l : List Char} {ls : List (List Char)}
    (h : lines s = l :: ls) : lines (c :: s) = (c :: l) :: ls := by
  rw [lines, if_neg hc, h]

theorem lines_eq_nil_iff {s : List Char} : lines s = [] ↔ s = [] := by
  constructor
  · intro h
    cases s with
    | nil => rfl
    | cons c s =>
      by_cases hc : c = '\n'
      · rw [hc, lines_break] at h
        cases h
      · cases hl : lines s with
        | nil => simp [lines_cons_of_nil hc hl] at h
        | cons l ls => simp [lines_cons_of_cons hc hl] at h
  · rintro rfl
    rfl

theorem mem_of_mem_lines {s l : List Char} (h : l ∈ lines s) : ∀ c ∈ l, c ∈ s ∧ c ≠ '\n' := by
  induction s generalizing l with
  | nil => cases h
  | cons c s ih =>
    have hrest {l : List Char} (h : l ∈ lines s) (d : Char) (hd : d ∈ l) : d ∈ c :: s ∧ d ≠ '\n' :=
      ⟨List.mem_cons_of_mem _ (ih h d hd).1, (ih h d hd).2⟩
    by_cases hc : c = '\n'
    · rw [hc, lines_break] at h
      rcases List.mem_cons.mp h with rfl | h
      · exact fun d hd => nomatch hd
      · exact hrest h
    · have hhere (d : Char) (h : d = c) : d ∈ c :: s ∧ d ≠ '\n' := ⟨h ▸ List.mem_cons_self, h ▸ hc⟩
      cases hl : lines s with
      | nil =>
        rw [lines_cons_of_nil hc hl, List.mem_singleton] at h
        subst h
        exact fun d hd => hhere d (List.mem_singleton.mp hd)
      | cons l' ls =>
        rw [hl] at hrest
        rw [lines_cons_of_cons hc hl] at h
        rcases List.mem_cons.mp h with rfl | h
        · intro d hd
          rcases List.mem_cons.mp hd with hd | hd
          · exact hhere d hd
          · exact hrest List.mem_cons_self d hd
        · exact hrest (List.mem_cons_of_mem _ h)

theorem lines_append (s t : List Char) : lines (s ++ '\n' :: t) = lines (s ++ ['\n']) ++ lines t := by
  induction s with
  | nil => exact lines_break t
  | cons c s ih =>
    rw [List.cons_append, List.cons_append]
    by_cases hc : c = '\n'
    · rw [hc, lines_break, lines_break, ih, List.cons_append]
    · have hne : lines (s ++ ['\n']) ≠ [] := fun h => by simpa using lines_eq_nil_iff.mp h
      obtain ⟨l, ls, hl⟩ := List.exists_cons_of_ne_nil hne
      rw [hl] at ih
      rw [lines_cons_of_cons hc hl, lines_cons_of_cons hc ih]
      rfl

theorem intercalate_lines (s : List Char) : ['\n'].intercalate (lines s) = withoutLastBreak s := by
  induction s with
  | nil => rfl
  | cons c s ih =>
    cases hl : lines s with
    | nil =>
      obtain rfl := lines_eq_nil_iff.mp hl
      by_cases hc : c = '\n'
      · rw [hc]
        rfl
      · rw [lines_cons_of_nil hc hl, List.intercalate_singleton, withoutLastBreak, if_neg]
        simpa using hc
    | cons l ls =>
      have hs : s ≠ [] := fun h => by simp [lines_eq_nil_iff.mpr h] at hl
      rw [withoutLastBreak_cons c hs, ← ih, hl]
      by_cases hc : c = '\n'
      · rw [hc, lines_break, hl, List.intercalate_cons_cons]
        rfl
      · rw [lines_cons_of_cons hc hl]
        cases ls <;> simp

end Intake.Text
