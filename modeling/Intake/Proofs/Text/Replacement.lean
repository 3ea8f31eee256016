import Intake.Proofs.Text.Spelling

/-!
# What is replaced

Where bytes spell no character, the longest piece that begins one is replaced as a whole, and a byte that
begins none alone. The decoder gives the one text in which this is done everywhere.
-/
namespace Intake.Text.Utf8

/-- Bytes with which the spelling of some character begins without being all of it. -/
def Begins (m : List UInt8) : Prop := ∃ c more, more ≠ [] ∧ String.utf8EncodeChar c = m ++ more

/-- Where no character is spelled, the longest piece that begins one, or else a single byte. -/
structure Piece (m rest : List UInt8) : Prop where
  nonempty : m ≠ []
  noCharacter : ∀ c, ¬String.utf8EncodeChar c <+: m ++ rest
  begins : Begins m ∨ m.length = 1
  longest : ∀ m', m' <+: m ++ rest → m.length < m'.length → ¬Begins m'

/-- The text that bytes stand for when one replacement character is put in place of each such piece. -/
inductive Replaced : List UInt8 → List Char → Prop
  | nil : Replaced [] []
  | character (c : Char) {rest : List UInt8} {text : List Char} (h : Replaced rest text) :
      Replaced (String.utf8EncodeChar c ++ rest) (c :: text)
  | piece {m rest : List UInt8} {text : List Char} (hm : Piece m rest) (h : Replaced rest text) :
      Replaced (m ++ rest) (replacement :: text)

theorem decodeFrom_inside_ne_nil (missing low high value : Nat) (bytes : List UInt8) :
    decodeFrom (.inside missing low high value) bytes ≠ [] := by
  induction bytes generalizing missing low high value with
  | nil => exact List.cons_ne_nil _ _
  | cons b rest ih =>
    by_cases hb : low ≤ b.toNat ∧ b.toNat ≤ high
    · by_cases hm : missing ≤ 1
      · simp [decodeFrom, feed, hb, hm]
      · simpa [decodeFrom, feed, hb, hm] using ih _ _ _ _
    · rw [decodeFrom_rejected hb]
      exact List.cons_ne_nil _ _

theorem decode_ne_nil (b : UInt8) (rest : List UInt8) : decode (b :: rest) ≠ [] := by
  rw [decode_cons]
  rcases lead_cases b.toNat with h | h | h | h | h
  · rw [start_ascii h]
    exact List.cons_ne_nil _ _
  · rw [start_two h]
    exact decodeFrom_inside_ne_nil _ _ _ _ _
  · rw [start_three h]
    exact decodeFrom_inside_ne_nil _ _ _ _ _
  · rw [start_four h]
    exact decodeFrom_inside_ne_nil _ _ _ _ _
  · rw [start_stray h]
    exact List.cons_ne_nil _ _

theorem eq_nil_of_decode {bytes : List UInt8} (h : decode bytes = []) : bytes = [] := by
  cases bytes with
  | nil => rfl
  | cons b rest => exact absurd h (decode_ne_nil b rest)

theorem more_eq_nil {c c' : Char} {more : List UInt8}
    (h : String.utf8EncodeChar c ++ more = String.utf8EncodeChar c') : more = [] := by
  have hd := congrArg decode h
  rw [decode_char, ← List.append_nil (String.utf8EncodeChar c'), decode_char] at hd
  exact eq_nil_of_decode (List.cons.inj hd).2

theorem Begins.not_character {m : List UInt8} (h : Begins m) (c : Char) :
    ¬String.utf8EncodeChar c <+: m := by
  rintro ⟨l, rfl⟩
  obtain ⟨c', more, hm, he⟩ := h
  rw [List.append_assoc] at he
  exact hm (List.append_eq_nil_iff.mp (more_eq_nil he.symm)).2

/-- The decoder has read a beginning of a character, which each further byte that it accepts goes on with. -/
structure Awaits (m : List UInt8) (missing low high value : Nat) : Prop where
  nonempty : m ≠ []
  reads : ∀ rest, decode (m ++ rest) = decodeFrom (.inside missing low high value) rest
  pos : 0 < missing
  range : ∃ b : UInt8, low ≤ b.toNat ∧ b.toNat ≤ high
  spells : ∀ b : UInt8, low ≤ b.toNat ∧ b.toNat ≤ high → ∀ tail : List UInt8, tail.length + 1 = missing →
    (∀ t ∈ tail, IsTail t) → ∃ c, String.utf8EncodeChar c = m ++ b :: tail

namespace Awaits

variable {m : List UInt8} {b : UInt8}

theorem begins (h : Awaits m missing low high value) : Begins m := by
  obtain ⟨b, hb⟩ := h.range
  have ht : ∀ t ∈ List.replicate (missing - 1) (0x80 : UInt8), IsTail t := by
    intro t ht
    rw [List.eq_of_mem_replicate ht]
    decide
  have hpos := h.pos
  obtain ⟨c, hc⟩ := h.spells b hb _ (by rw [List.length_replicate]; omega) ht
  exact ⟨c, _, List.cons_ne_nil _ _, hc⟩

theorem accepts (h : Awaits m (missing + 2) low high value) (hb : low ≤ b.toNat ∧ b.toNat ≤ high) :
    Awaits (m ++ [b]) (missing + 1) 0x80 0xBF (value * 64 + b.toNat % 64) where
  nonempty := by simp
  reads rest := by
    rw [List.append_assoc, List.singleton_append, h.reads, decodeFrom_accepted hb]
  pos := Nat.succ_pos _
  range := ⟨0x80, by decide⟩
  spells b' hb' tail hl ht := by
    rw [List.append_assoc, List.singleton_append]
    refine h.spells b hb (b' :: tail) (by rw [List.length_cons, hl]) ?_
    intro t hm
    rcases List.mem_cons.mp hm with rfl | hm
    · exact hb'
    · exact ht t hm

theorem rejects (h : Awaits m missing low high value)
    (hr : ∀ b ∈ rest.head?, ¬(low ≤ b.toNat ∧ b.toNat ≤ high)) :
    Piece m rest ∧ decode (m ++ rest) = replacement :: decode rest := by
  have hstop (k : List UInt8) (hk : k ≠ []) (hp : m ++ k <+: m ++ rest) (c : Char) (more : List UInt8) :
      String.utf8EncodeChar c ≠ m ++ k ++ more := by
    intro he
    obtain ⟨b, k, rfl⟩ := List.exists_cons_of_ne_nil hk
    obtain ⟨l, rfl⟩ := (List.prefix_append_right_inj m).mp hp
    have hd : decode (String.utf8EncodeChar c) = [c] := by
      rw [← List.append_nil (String.utf8EncodeChar c), decode_char]
      rfl
    rw [he, List.append_assoc, h.reads, List.cons_append, decodeFrom_rejected (hr b rfl)] at hd
    exact decode_ne_nil _ _ (List.cons.inj hd).2
  constructor
  · constructor
    · exact h.nonempty
    · intro c hc
      obtain hp | ⟨k, hk⟩ := List.prefix_or_prefix_of_prefix hc (List.prefix_append m rest)
      · exact h.begins.not_character c hp
      · by_cases hn : k = []
        · rw [hn, List.append_nil] at hk
          exact h.begins.not_character c (hk ▸ List.prefix_rfl)
        · exact hstop k hn (hk ▸ hc) c [] (by rw [List.append_nil, hk])
    · exact .inl h.begins
    · rintro m' hm hl ⟨c, more, -, hc⟩
      obtain ⟨k, rfl⟩ := List.prefix_of_prefix_length_le (List.prefix_append m rest) hm hl.le
      refine hstop k ?_ hm c more hc
      rintro rfl
      simp at hl
  · rw [h.reads]
    cases rest with
    | nil => rfl
    | cons b rest => exact decodeFrom_rejected (hr b rfl)

/-- From a beginning on, either a character is spelled to its end or a piece is replaced. -/
theorem front (h : Awaits m missing low high value) (rest : List UInt8) :
    (∃ c l, m ++ rest = String.utf8EncodeChar c ++ l) ∨
      ∃ k l, m ++ rest = k ++ l ∧ Piece k l ∧ decode (m ++ rest) = replacement :: decode l := by
  induction rest generalizing m missing low high value with
  | nil => exact .inr ⟨m, [], rfl, h.rejects (by simp)⟩
  | cons b rest ih =>
    by_cases hb : low ≤ b.toNat ∧ b.toNat ≤ high
    · match missing, h.pos with
      | 1, _ =>
        obtain ⟨c, hc⟩ := h.spells b hb [] rfl (by simp)
        exact .inl ⟨c, rest, by rw [hc, List.append_assoc, List.singleton_append]⟩
      | n + 2, _ =>
        rw [← List.singleton_append, ← List.append_assoc]
        exact ih (h.accepts hb)
    · refine .inr ⟨m, b :: rest, rfl, h.rejects ?_⟩
      intro b' hb'
      cases hb'
      exact hb

end Awaits

theorem awaits_two {a : UInt8} (ha : 0xC2 ≤ a.toNat ∧ a.toNat ≤ 0xDF) :
    Awaits [a] 1 0x80 0xBF (a.toNat - 0xC0) where
  nonempty := List.cons_ne_nil _ _
  reads rest := by
    rw [List.singleton_append, decode_cons, start_two ha]
    rfl
  pos := Nat.one_pos
  range := ⟨0x80, by decide⟩
  spells b hb tail hl _ := by
    obtain rfl := List.length_eq_zero_iff.mp (Nat.succ.inj hl)
    exact ⟨_, (Spelled.two ha hb).eq_utf8EncodeChar⟩

theorem awaits_three {a : UInt8} (ha : 0xE0 ≤ a.toNat ∧ a.toNat ≤ 0xEF) :
    Awaits [a] 2 (if a.toNat = 0xE0 then 0xA0 else 0x80) (if a.toNat = 0xED then 0x9F else 0xBF)
      (a.toNat - 0xE0) where
  nonempty := List.cons_ne_nil _ _
  reads rest := by
    rw [List.singleton_append, decode_cons, start_three ha]
    rfl
  pos := Nat.two_pos
  range := by
    by_cases hl : a.toNat = 0xE0
    · exact ⟨0xA0, by simp [hl]⟩
    · exact ⟨0x80, by split_ifs <;> decide⟩
  spells b hb tail hl ht := by
    obtain ⟨c, rfl⟩ := List.length_eq_one_iff.mp (Nat.succ.inj hl)
    exact ⟨_, (Spelled.three ha hb (ht c List.mem_cons_self)).eq_utf8EncodeChar⟩

theorem awaits_four {a : UInt8} (ha : 0xF0 ≤ a.toNat ∧ a.toNat ≤ 0xF4) :
    Awaits [a] 3 (if a.toNat = 0xF0 then 0x90 else 0x80) (if a.toNat = 0xF4 then 0x8F else 0xBF)
      (a.toNat - 0xF0) where
  nonempty := List.cons_ne_nil _ _
  reads rest := by
    rw [List.singleton_append, decode_cons, start_four ha]
    rfl
  pos := Nat.succ_pos _
  range := by
    by_cases hl : a.toNat = 0xF0
    · exact ⟨0x90, by simp [hl]⟩
    · exact ⟨0x80, by split_ifs <;> decide⟩
  spells b hb tail hl ht := by
    obtain ⟨c, d, rfl⟩ := List.length_eq_two.mp (Nat.succ.inj hl)
    exact ⟨_, (Spelled.four ha hb (ht c (by simp)) (ht d (by simp))).eq_utf8EncodeChar⟩

theorem piece_stray {a : UInt8} (ha : 0x80 ≤ a.toNat ∧ a.toNat ≤ 0xC1 ∨ 0xF4 < a.toNat) (rest : List UInt8) :
    Piece [a] rest := by
  have hno (c : Char) (more : List UInt8) : String.utf8EncodeChar c ≠ a :: more := by
    intro he
    have hs := spelled_utf8EncodeChar c
    rw [he] at hs
    cases hs <;> omega
  constructor
  · exact List.cons_ne_nil _ _
  · rintro c hc
    obtain ⟨b, l, he⟩ := List.exists_cons_of_ne_nil (String.utf8EncodeChar_ne_nil (c := c))
    rw [he, List.singleton_append, List.cons_prefix_cons] at hc
    exact hno c l (hc.1 ▸ he)
  · exact .inr rfl
  · rintro m' hm hl ⟨c, more, -, hc⟩
    obtain ⟨k, rfl⟩ := List.prefix_of_prefix_length_le (List.prefix_append [a] rest) hm hl.le
    exact hno c _ hc

theorem front (a : UInt8) (rest : List UInt8) :
    (∃ c l, a :: rest = String.utf8EncodeChar c ++ l) ∨
      ∃ k l, a :: rest = k ++ l ∧ Piece k l ∧ decode (a :: rest) = replacement :: decode l := by
  rcases lead_cases a.toNat with h | h | h | h | h
  · exact .inl ⟨_, rest, by rw [(Spelled.one h).eq_utf8EncodeChar]; rfl⟩
  · exact (awaits_two h).front rest
  · exact (awaits_three h).front rest
  · exact (awaits_four h).front rest
  · refine .inr ⟨[a], rest, rfl, piece_stray h rest, ?_⟩
    rw [decode_cons, start_stray h]
    rfl

theorem replaced_decode (bytes : List UInt8) : Replaced bytes (decode bytes) := by
  induction hn : bytes.length using Nat.strongRecOn generalizing bytes with
  | ind n ih =>
    cases bytes with
    | nil => exact .nil
    | cons a rest =>
      obtain ⟨c, l, he⟩ | ⟨k, l, he, hp, hd⟩ := front a rest
      · have hl := congrArg List.length he
        have := List.length_pos_iff.mpr (String.utf8EncodeChar_ne_nil (c := c))
        rw [List.length_append] at hl
        rw [he, decode_char]
        exact .character c (ih l.length (by omega) l rfl)
      · have hl := congrArg List.length he
        have := List.length_pos_iff.mpr hp.nonempty
        rw [List.length_append] at hl
        rw [hd, he]
        exact .piece hp (ih l.length (by omega) l rfl)

theorem Piece.length_le {m m' l l' : List UInt8} (h : Piece m l) (h' : Piece m' l')
    (he : m ++ l = m' ++ l') : m'.length ≤ m.length := by
  by_contra hlt
  have hlt : m.length < m'.length := Nat.lt_of_not_le hlt
  have hpos := List.length_pos_iff.mpr h.nonempty
  rcases h'.begins with hb | hb
  · exact h.longest m' (he ▸ List.prefix_append m' l') hlt hb
  · omega

theorem Piece.unique {m m' l l' : List UInt8} (h : Piece m l) (h' : Piece m' l')
    (he : m ++ l = m' ++ l') : m = m' ∧ l = l' :=
  List.append_inj he (Nat.le_antisymm (h'.length_le h he.symm) (h.length_le h' he))

theorem Replaced.eq_decode {text : List Char} {bytes : List UInt8} (h : Replaced bytes text) :
    text = decode bytes := by
  induction h with
  | nil => rfl
  | character c h ih => rw [decode_char, ih]
  | @piece m rest text hm h ih =>
    obtain ⟨a, m', rfl⟩ := List.exists_cons_of_ne_nil hm.nonempty
    obtain ⟨c, l, he⟩ | ⟨k, l, he, hp, hd⟩ := front a (m' ++ rest)
    · exact absurd ⟨l, he.symm⟩ (hm.noCharacter c)
    · obtain ⟨rfl, rfl⟩ := hm.unique hp he
      rw [ih, List.cons_append, hd]

/-- Bytes decode to the text in which each longest piece that spells nothing is replaced. -/
theorem replaced_iff {text : List Char} {bytes : List UInt8} : Replaced bytes text ↔ text = decode bytes :=
  ⟨Replaced.eq_decode, fun h => h ▸ replaced_decode bytes⟩

end Intake.Text.Utf8
