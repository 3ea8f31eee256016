import Intake.EventLog.Store
import Mathlib.Data.List.TakeWhile

/-!
# Questions about what starts with a text

An id is like the pattern made from a text just when it starts with the text, character by character.
-/
namespace Intake.Like

/-- The replacement character and the two noncharacters that are read as it. -/
def isReplacement (c : Char) : Bool := c.toNat = 0xFFFD || c.toNat = 0xFFFE || c.toNat = 0xFFFF

/-- Characters that are not told apart: the two cases of a letter of ASCII, and those that are read as the
replacement character. -/
def alike (c d : Char) : Bool := c.toLower = d.toLower || (isReplacement c && isReplacement d)

/-- Whether a text starts with another one, up to characters that are not told apart. -/
def begins : List Char → List Char → Bool
  | [], _ => true
  | _ :: _, [] => false
  | c :: cs, d :: ds => alike c d && begins cs ds

theorem toNat_toLower (c : Char) :
    (65 ≤ c.toNat ∧ c.toNat ≤ 90 ∧ c.toLower.toNat = c.toNat + 32) ∨
      ((c.toNat < 65 ∨ 90 < c.toNat) ∧ c.toLower.toNat = c.toNat) := by
  unfold Char.toLower
  split
  · rename_i h
    obtain ⟨h₁, h₂⟩ : 65 ≤ c.toNat ∧ c.toNat ≤ 90 := h
    have hn : (c.val + 32).toNat = c.toNat + 32 := by
      rw [UInt32.toNat_add]
      show (c.toNat + 32) % 4294967296 = _
      omega
    exact .inl ⟨h₁, h₂, hn⟩
  · rename_i h
    have h : ¬(65 ≤ c.toNat ∧ c.toNat ≤ 90) := h
    exact .inr ⟨by omega, rfl⟩

theorem toNat_folded (c : Char) :
    ((c.toNat = 0xFFFE ∨ c.toNat = 0xFFFF) ∧ (folded c).toNat = 0xFFFD) ∨
      (c.toNat ≠ 0xFFFE ∧ c.toNat ≠ 0xFFFF ∧ (folded c).toNat = c.toLower.toNat) := by
  unfold folded
  split
  · rename_i h
    exact .inl ⟨h, rfl⟩
  · rename_i h
    exact .inr ⟨fun hc => h (.inl hc), fun hc => h (.inr hc), rfl⟩

theorem alike_iff {c d : Char} : alike c d = true ↔ c.toLower.toNat = d.toLower.toNat ∨
    ((c.toNat = 0xFFFD ∨ c.toNat = 0xFFFE ∨ c.toNat = 0xFFFF) ∧
      (d.toNat = 0xFFFD ∨ d.toNat = 0xFFFE ∨ d.toNat = 0xFFFF)) := by
  simp only [alike, isReplacement, Bool.or_eq_true, Bool.and_eq_true, decide_eq_true_eq, ← Char.toNat_inj,
    or_assoc]

theorem folded_beq (c d : Char) : (folded c == folded d) = alike c d := by
  rw [Bool.eq_iff_iff, beq_iff_eq, ← Char.toNat_inj, alike_iff]
  have hc := toNat_folded c
  have hd := toNat_folded d
  have hc' := toNat_toLower c
  have hd' := toNat_toLower d
  omega

theorem eq_of_alike_special {c d : Char} (hc : isSpecial c = true) (h : alike c d = true) : d = c := by
  simp only [isSpecial, Bool.or_eq_true, decide_eq_true_eq] at hc
  rw [alike_iff] at h
  have hn : c.toNat = 37 ∨ c.toNat = 95 ∨ c.toNat = 47 := by
    rcases hc with (rfl | rfl) | rfl
    · exact .inl rfl
    · exact .inr (.inl rfl)
    · exact .inr (.inr rfl)
  have hc' := toNat_toLower c
  have hd' := toNat_toLower d
  apply Char.toNat_inj.mp
  omega

theorem alike_null {c d : Char} (hc : c.toNat ≠ 0) (hd : d.toNat = 0) : alike c d = false := by
  rw [Bool.eq_false_iff, Ne, alike_iff]
  have hc' := toNat_toLower c
  have hd' := toNat_toLower d
  omega

theorem anyEnd_of_nil {test : List Char → Bool} (h : test [] = true) (cs : List Char) :
    anyEnd test cs = true := by
  induction cs with
  | nil => exact h
  | cons c cs ih => rw [anyEnd, ih, Bool.or_true]

theorem matchesAll_patternOf (cs ds : List Char) : matchesAll (patternOf cs) ds = begins cs ds := by
  induction cs generalizing ds with
  | nil =>
    have h : matchesAll [] [] = true := rfl
    rw [patternOf, escaped, List.nil_append, matchesAll.eq_def]
    exact anyEnd_of_nil h ds
  | cons c cs ih =>
    rw [patternOf, escaped]
    cases hc : isSpecial c with
    | true =>
      cases ds with
      | nil => rfl
      | cons d ds =>
        rw [begins, ← folded_beq, ← ih]
        rfl
    | false =>
      simp only [isSpecial, Bool.or_eq_false_iff, decide_eq_false_iff_not] at hc
      obtain ⟨⟨hany, hone⟩, hslash⟩ := hc
      rw [if_neg Bool.false_ne_true, List.cons_append, matchesAll.eq_def]
      simp only [if_neg hany, if_neg hone, if_neg hslash]
      cases ds with
      | nil => rfl
      | cons d ds => rw [begins, ← folded_beq, ← ih, patternOf]

theorem beforeNull_patternOf {cs : List Char} (h : ∀ c ∈ cs, c.toNat ≠ 0) :
    beforeNull (patternOf cs) = patternOf cs := by
  apply List.takeWhile_eq_self_iff.mpr
  intro c hc
  rw [decide_eq_true_eq]
  induction cs with
  | nil =>
    rw [List.mem_singleton.mp hc]
    decide
  | cons a cs ih =>
    obtain ⟨ha, hcs⟩ := List.forall_mem_cons.mp h
    rw [patternOf, escaped] at hc
    split at hc
    · rcases List.mem_cons.mp hc with rfl | hc
      · decide
      · rcases List.mem_cons.mp hc with rfl | hc
        · exact ha
        · exact ih hcs hc
    · rcases List.mem_cons.mp hc with rfl | hc
      · exact ha
      · exact ih hcs hc

theorem begins_beforeNull {cs : List Char} (h : ∀ c ∈ cs, c.toNat ≠ 0) (ds : List Char) :
    begins cs (beforeNull ds) = begins cs ds := by
  induction cs generalizing ds with
  | nil => rfl
  | cons c cs ih =>
    obtain ⟨hc, hcs⟩ := List.forall_mem_cons.mp h
    cases ds with
    | nil => rfl
    | cons d ds =>
      by_cases hd : d.toNat = 0
      · have hn := alike_null hc hd
        rw [beforeNull, List.takeWhile_cons_of_neg (by simpa using hd), begins, begins, hn, Bool.false_and]
      · rw [beforeNull, List.takeWhile_cons_of_pos (by simpa using hd), begins, begins, ← ih hcs ds,
          beforeNull]

/-- For a text without a null, what is like its pattern is what starts with it. -/
theorem isLike_patternOf {cs : List Char} (h : ∀ c ∈ cs, c.toNat ≠ 0) (ds : List Char) :
    isLike ds (patternOf cs) = begins cs ds := by
  rw [isLike, beforeNull_patternOf h, matchesAll_patternOf, begins_beforeNull h]

end Intake.Like
