import Intake.Outcome

/-!
# How far an extractor gets

What an extractor delivers for the languages it is asked for are the first of the things that it is to
deliver, and it succeeds just when they are all there.
-/
namespace Intake.Extractor

variable {δ : Type} {before after : List δ} {r : Except Fault (Outcome Value)}

/-- After what was there before stand the first `n` of the things to deliver. -/
structure Progress (before after things : List δ) (r : Except Fault (Outcome Value)) (n : Nat) : Prop where
  bound : n ≤ things.length
  delivered : after = before ++ things.take n
  success : (∃ v, r = .ok (.success v)) ↔ n = things.length

theorem Progress.done (before : List δ) (v : Value) : Progress before before [] (.ok (.success v)) 0 :=
  ⟨Nat.le_refl 0, (List.append_nil _).symm, ⟨fun _ => rfl, fun _ => ⟨v, rfl⟩⟩⟩

theorem Progress.stop {thing : δ} {rest : List δ} (ha : after = before) (hr : ¬∃ v, r = .ok (.success v)) :
    Progress before after (thing :: rest) r 0 := by
  refine ⟨Nat.zero_le _, ?_, ?_⟩
  · rw [ha, List.take_zero, List.append_nil]
  · exact ⟨fun h => absurd h hr, fun h => absurd h (Nat.succ_ne_zero _).symm⟩

theorem Progress.next {thing : δ} {rest : List δ} {n : Nat} (h : Progress (before ++ [thing]) after rest r n) :
    Progress before after (thing :: rest) r (n + 1) := by
  refine ⟨Nat.succ_le_succ h.bound, ?_, ?_⟩
  · rw [h.delivered, List.take_succ_cons, List.append_assoc, List.singleton_append]
  · rw [h.success, List.length_cons, Nat.succ_inj]

theorem Progress.success_iff {things : List δ} {n : Nat} (h : Progress before after things r n) :
    (∃ v, r = .ok (.success v)) ↔ after = before ++ things := by
  rw [h.success]
  constructor
  · intro hn
    rw [h.delivered, hn, List.take_length]
  · intro ha
    have hl := congrArg List.length (List.append_cancel_left (h.delivered.symm.trans ha))
    rwa [List.length_take, Nat.min_eq_left h.bound] at hl

theorem Progress.lt_of_not_success {things : List δ} {n : Nat} (h : Progress before after things r n)
    (hr : ¬∃ v, r = .ok (.success v)) : n < things.length :=
  Nat.lt_of_le_of_ne h.bound fun hn => hr (h.success.mpr hn)

end Intake.Extractor
