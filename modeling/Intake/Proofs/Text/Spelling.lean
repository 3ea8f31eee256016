import Intake.Text.Utf8
import Mathlib

/-!
# Characters spelled in bytes

The decoder reads the spelling of every character as that character, and a byte that can begin a character
is read as one whatever was read before it. So valid text is not swallowed by what stands in front of it.
-/
namespace Intake.Text.Utf8

/-- A byte that goes on with a character and begins none. -/
def IsTail (b : UInt8) : Prop := 0x80 ≤ b.toNat ∧ b.toNat ≤ 0xBF

instance (b : UInt8) : Decidable (IsTail b) := inferInstanceAs (Decidable (_ ∧ _))

/-- The spelling of a character, byte by byte. The range of the second byte leaves out what has a shorter
spelling, the surrogates, and what is no character any more. -/
inductive Spelled : Char → List UInt8 → Prop
  | one {a : UInt8} (ha : a.toNat < 0x80) : Spelled (Char.ofNat a.toNat) [a]
  | two {a b : UInt8} (ha : 0xC2 ≤ a.toNat ∧ a.toNat ≤ 0xDF) (hb : IsTail b) :
      Spelled (Char.ofNat ((a.toNat - 0xC0) * 64 + b.toNat % 64)) [a, b]
  | three {a b c : UInt8} (ha : 0xE0 ≤ a.toNat ∧ a.toNat ≤ 0xEF)
      (hb : (if a.toNat = 0xE0 then 0xA0 else 0x80) ≤ b.toNat ∧
        b.toNat ≤ if a.toNat = 0xED then 0x9F else 0xBF) (hc : IsTail c) :
      Spelled (Char.ofNat (((a.toNat - 0xE0) * 64 + b.toNat % 64) * 64 + c.toNat % 64)) [a, b, c]
  | four {a b c d : UInt8} (ha : 0xF0 ≤ a.toNat ∧ a.toNat ≤ 0xF4)
      (hb : (if a.toNat = 0xF0 then 0x90 else 0x80) ≤ b.toNat ∧
        b.toNat ≤ if a.toNat = 0xF4 then 0x8F else 0xBF) (hc : IsTail c) (hd : IsTail d) :
      Spelled (Char.ofNat ((((a.toNat - 0xF0) * 64 + b.toNat % 64) * 64 + c.toNat % 64) * 64 +
        d.toNat % 64)) [a, b, c, d]

section

variable {b missing low high value : Nat} {rest : List UInt8}

theorem lead_cases (b : Nat) : b < 0x80 ∨ (0xC2 ≤ b ∧ b ≤ 0xDF) ∨ (0xE0 ≤ b ∧ b ≤ 0xEF) ∨
    (0xF0 ≤ b ∧ b ≤ 0xF4) ∨ (0x80 ≤ b ∧ b ≤ 0xC1 ∨ 0xF4 < b) := by
  omega

theorem start_ascii (h : b < 0x80) : start b = ([Char.ofNat b], .ready) := if_pos h

theorem start_two (h : 0xC2 ≤ b ∧ b ≤ 0xDF) : start b = ([], .inside 1 0x80 0xBF (b - 0xC0)) := by
  rw [start, if_neg (by omega), if_pos h]

theorem start_three (h : 0xE0 ≤ b ∧ b ≤ 0xEF) :
    start b = ([], .inside 2 (if b = 0xE0 then 0xA0 else 0x80) (if b = 0xED then 0x9F else 0xBF)
      (b - 0xE0)) := by
  rw [start, if_neg (by omega), if_neg (by omega)]
  by_cases hl : b = 0xE0
  · simp [hl]
  · by_cases hh : b = 0xED
    · simp [hh]
    · rw [if_neg hl, if_neg hh, if_pos (by omega), if_neg hl, if_neg hh]

theorem start_four (h : 0xF0 ≤ b ∧ b ≤ 0xF4) :
    start b = ([], .inside 3 (if b = 0xF0 then 0x90 else 0x80) (if b = 0xF4 then 0x8F else 0xBF)
      (b - 0xF0)) := by
  rw [start, if_neg (by omega), if_neg (by omega), if_neg (by omega), if_neg (by omega),
    if_neg (by omega)]
  by_cases hl : b = 0xF0
  · simp [hl]
  · by_cases hh : b = 0xF4
    · simp [hh]
    · rw [if_neg hl, if_neg hh, if_pos (by omega), if_neg hl, if_neg hh]

theorem start_stray (h : 0x80 ≤ b ∧ b ≤ 0xC1 ∨ 0xF4 < b) : start b = ([replacement], .ready) := by
  unfold start
  repeat rw [if_neg (by omega)]

theorem decode_cons (b : UInt8) (rest : List UInt8) :
    decode (b :: rest) = (start b.toNat).1 ++ decodeFrom (start b.toNat).2 rest := rfl

theorem decodeFrom_accepted {b : UInt8} (hb : low ≤ b.toNat ∧ b.toNat ≤ high) :
    decodeFrom (.inside (missing + 2) low high value) (b :: rest) =
      decodeFrom (.inside (missing + 1) 0x80 0xBF (value * 64 + b.toNat % 64)) rest := by
  simp [decodeFrom, feed, hb]

theorem decodeFrom_completed {b : UInt8} (hb : low ≤ b.toNat ∧ b.toNat ≤ high) :
    decodeFrom (.inside 1 low high value) (b :: rest) =
      Char.ofNat (value * 64 + b.toNat % 64) :: decode rest := by
  simp [decodeFrom, feed, hb, decode]

theorem decodeFrom_rejected {b : UInt8} (hb : ¬(low ≤ b.toNat ∧ b.toNat ≤ high)) :
    decodeFrom (.inside missing low high value) (b :: rest) = replacement :: decode (b :: rest) := by
  simp [decodeFrom, feed, hb, decode]

end

namespace Spelled

variable {c : Char} {l : List UInt8}

theorem of_eq {c' : Char} (h : Spelled c l) (hc : c = c') : Spelled c' l := hc ▸ h

theorem decode (h : Spelled c l) (rest : List UInt8) : decode (l ++ rest) = c :: Utf8.decode rest := by
  cases h with
  | one ha =>
    rw [List.singleton_append, decode_cons, start_ascii ha]
    rfl
  | two ha hb =>
    rw [List.cons_append, decode_cons, start_two ha]
    exact decodeFrom_completed hb
  | three ha hb hc =>
    rw [List.cons_append, decode_cons, start_three ha]
    exact (decodeFrom_accepted hb).trans (decodeFrom_completed hc)
  | four ha hb hc hd =>
    rw [List.cons_append, decode_cons, start_four ha]
    exact (decodeFrom_accepted hb).trans ((decodeFrom_accepted hc).trans (decodeFrom_completed hd))

theorem head (h : Spelled c l) : ∃ a l', l = a :: l' ∧ ¬IsTail a := by
  unfold IsTail
  cases h with
  | one ha => exact ⟨_, _, rfl, by omega⟩
  | two ha hb => exact ⟨_, _, rfl, by omega⟩
  | three ha hb hc => exact ⟨_, _, rfl, by omega⟩
  | four ha hb hc hd => exact ⟨_, _, rfl, by omega⟩

end Spelled

theorem toNat_ofNat {n : Nat} (h : n < 256) : (UInt8.ofNat n).toNat = n := by
  rw [UInt8.toNat_ofNat', Nat.mod_eq_of_lt h]

theorem ofNat_eq {n : Nat} {a : UInt8} (h : n = a.toNat) : UInt8.ofNat n = a := by
  rw [h, UInt8.ofNat_toNat]

theorem spelled_utf8EncodeChar (c : Char) : Spelled c (String.utf8EncodeChar c) := by
  have hv : c.toNat < 0xD800 ∨ 0xDFFF < c.toNat ∧ c.toNat < 0x110000 := c.valid
  rw [String.utf8EncodeChar.eq_1 c, ← Char.toNat, ← Char.ofNat_toNat c]
  generalize Char.toNat c = v at *
  rw [Char.toNat_ofNat, if_pos hv]
  -- What a spelling amounts to is in each case the number that its bytes were made from.
  split_ifs with h₁ h₂ h₃
  · have ha := toNat_ofNat (n := v) (by omega)
    refine (Spelled.one (by omega)).of_eq ?_
    rw [ha]
  · have ha := toNat_ofNat (n := v / 64 % 32 + 192) (by omega)
    have hb := toNat_ofNat (n := v % 64 + 128) (by omega)
    refine (Spelled.two (by omega) (by unfold IsTail; omega)).of_eq ?_
    congr 1
    omega
  · have ha := toNat_ofNat (n := v / 4096 % 16 + 224) (by omega)
    have hb := toNat_ofNat (n := v / 64 % 64 + 128) (by omega)
    have hc := toNat_ofNat (n := v % 64 + 128) (by omega)
    refine (Spelled.three (by omega) (by split_ifs <;> omega) (by unfold IsTail; omega)).of_eq ?_
    congr 1
    omega
  · have ha := toNat_ofNat (n := v / 262144 % 8 + 240) (by omega)
    have hb := toNat_ofNat (n := v / 4096 % 64 + 128) (by omega)
    have hc := toNat_ofNat (n := v / 64 % 64 + 128) (by omega)
    have hd := toNat_ofNat (n := v % 64 + 128) (by omega)
    refine (Spelled.four (by omega) (by split_ifs <;> omega) (by unfold IsTail; omega)
      (by unfold IsTail; omega)).of_eq ?_
    congr 1
    omega

theorem decode_char (c : Char) (rest : List UInt8) :
    decode (String.utf8EncodeChar c ++ rest) = c :: decode rest :=
  (spelled_utf8EncodeChar c).decode rest

theorem utf8EncodeChar_ofNat {v : Nat} (hv : v.isValidChar) :
    String.utf8EncodeChar (Char.ofNat v) =
      if v ≤ 127 then [UInt8.ofNat v]
      else if v ≤ 2047 then [UInt8.ofNat (v / 64 % 32 + 192), UInt8.ofNat (v % 64 + 128)]
      else if v ≤ 65535 then [UInt8.ofNat (v / 4096 % 16 + 224), UInt8.ofNat (v / 64 % 64 + 128),
        UInt8.ofNat (v % 64 + 128)]
      else [UInt8.ofNat (v / 262144 % 8 + 240), UInt8.ofNat (v / 4096 % 64 + 128),
        UInt8.ofNat (v / 64 % 64 + 128), UInt8.ofNat (v % 64 + 128)] := by
  rw [String.utf8EncodeChar.eq_1, ← Char.toNat, Char.toNat_ofNat, if_pos hv]

theorem Spelled.eq_utf8EncodeChar {c : Char} {l : List UInt8} (h : Spelled c l) :
    String.utf8EncodeChar c = l := by
  cases h with
  | one ha => rw [utf8EncodeChar_ofNat (by omega), if_pos (by omega), UInt8.ofNat_toNat]
  | @two a b ha hb =>
    unfold IsTail at hb
    rw [utf8EncodeChar_ofNat (by omega), if_neg (by omega), if_pos (by omega),
      ofNat_eq (a := a) (by omega), ofNat_eq (a := b) (by omega)]
  | @three a b c ha hb hc =>
    unfold IsTail at hc
    split_ifs at hb
    all_goals
      rw [utf8EncodeChar_ofNat (by omega), if_neg (by omega), if_neg (by omega), if_pos (by omega),
        ofNat_eq (a := a) (by omega), ofNat_eq (a := b) (by omega), ofNat_eq (a := c) (by omega)]
  | @four a b c d ha hb hc hd =>
    unfold IsTail at hc hd
    split_ifs at hb
    all_goals
      rw [utf8EncodeChar_ofNat (by omega), if_neg (by omega), if_neg (by omega), if_neg (by omega),
        ofNat_eq (a := a) (by omega), ofNat_eq (a := b) (by omega), ofNat_eq (a := c) (by omega),
        ofNat_eq (a := d) (by omega)]

/-- The bytes that the decoder accepts next begin no character. -/
def State.Sound : State → Prop
  | .ready => True
  | .inside _ low high _ => 0x80 ≤ low ∧ high ≤ 0xBF

theorem sound_start (b : Nat) : (start b).2.Sound := by
  rcases lead_cases b with h | h | h | h | h
  · rw [start_ascii h]
    trivial
  · rw [start_two h]
    exact ⟨Nat.le_refl _, Nat.le_refl _⟩
  · rw [start_three h]
    constructor <;> split_ifs <;> decide
  · rw [start_four h]
    constructor <;> split_ifs <;> decide
  · rw [start_stray h]
    trivial

theorem sound_feed (s : State) (b : Nat) : (feed s b).2.Sound := by
  cases s with
  | ready => exact sound_start b
  | inside missing low high value =>
    dsimp only [feed]
    split_ifs
    · trivial
    · exact ⟨Nat.le_refl _, Nat.le_refl _⟩
    · exact sound_start b

theorem decodeFrom_append_cons {s : State} (hs : s.Sound) {b : UInt8} (hb : ¬IsTail b) (l rest : List UInt8) :
    decodeFrom s (l ++ b :: rest) = decodeFrom s l ++ decode (b :: rest) := by
  induction l generalizing s with
  | nil =>
    cases s with
    | ready => rfl
    | inside missing low high value =>
      obtain ⟨hl, hh⟩ := hs
      exact decodeFrom_rejected fun h => hb ⟨hl.trans h.1, h.2.trans hh⟩
  | cons a l ih =>
    rw [List.cons_append, decodeFrom, ih (sound_feed s _), decodeFrom, List.append_assoc]

/-- Bytes can be decoded apart in front of one that can begin a character. -/
theorem decode_append_cons {b : UInt8} (hb : ¬IsTail b) (l rest : List UInt8) :
    decode (l ++ b :: rest) = decode l ++ decode (b :: rest) :=
  decodeFrom_append_cons (s := .ready) trivial hb l rest

theorem decode_text (s : List Char) (rest : List UInt8) :
    decode (s.flatMap String.utf8EncodeChar ++ rest) = s ++ decode rest := by
  induction s with
  | nil => rfl
  | cons c s ih => rw [List.flatMap_cons, List.append_assoc, decode_char, ih, List.cons_append]

theorem data_toUTF8 (s : String) : s.toUTF8.data.toList = s.toList.flatMap String.utf8EncodeChar := by
  have h : s.toByteArray = s.toList.utf8Encode := by rw [← String.toByteArray_ofList, String.ofList_toList]
  rw [String.toUTF8, h, List.utf8Encode]
  simp

/-- Text among other bytes is read as it is, and what stands around it as if it stood alone. -/
theorem decode_around {s : String} (hs : s ≠ "") (l rest : List UInt8) :
    decode (l ++ s.toUTF8.data.toList ++ rest) = decode l ++ s.toList ++ decode rest := by
  rw [data_toUTF8, List.append_assoc, List.append_assoc, ← decode_text]
  obtain ⟨c, t, hc⟩ := List.exists_cons_of_ne_nil (mt String.toList_eq_nil_iff.mp hs)
  obtain ⟨a, l', he, ha⟩ := (spelled_utf8EncodeChar c).head
  rw [hc, List.flatMap_cons, he]
  exact decode_append_cons ha l _

end Intake.Text.Utf8
