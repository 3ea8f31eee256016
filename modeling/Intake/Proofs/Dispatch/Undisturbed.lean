import Intake.Proofs.Dispatch.Abort
import Intake.Proofs.Dispatch.Report
import Intake.Proofs.Extractor.Registry

/-!
# An undisturbed dispatch

If the log takes every write and no extractor raises what leaves a dispatch, then every candidate is set to
work once, and what the log gets is known from what the candidates come back with.
-/
namespace Intake

namespace Store

/-- The database refuses none of the next rows. -/
def Takes (s : Store) (n : Nat) : Prop :=
  ∀ k < n, s.disturbances.commit k = none ∧ s.disturbances.insert k = none

theorem Takes.insertEvent {s : Store} {n : Nat} (h : s.Takes (n + 1)) {e : Event} (he : e.IsFresh) :
    ∃ s', (insertEvent e).run s = (.ok (), s') ∧ s'.Takes n := by
  obtain ⟨hc, hi⟩ := h 0 (Nat.zero_lt_succ n)
  obtain ⟨ms, r, hm, hr, -⟩ := rowOf_fresh he (nextId (s.events.map EventRow.id)) (s.clock 0)
  refine ⟨{ s with
    events := s.events ++ [r], clock := s.clock.rest, disturbances := inserted s.disturbances }, ?_, ?_⟩
  · simp only [Store.insertEvent, commit, insertion, Action.run_bind, Action.run_ofExcept, hm, run_actOn,
      hc, Action.run_get, hr, hi, Action.run_modify]
    rfl
  · intro k hk
    exact h (k + 1) (Nat.succ_lt_succ hk)

theorem IsWritable.takes {s : Store} (h : s.IsWritable) (n : Nat) : s.Takes n := by
  intro k _
  rw [h.commit_never, h.insert_never]
  exact ⟨rfl, rfl⟩

end Store

namespace Dispatch

variable {σ : Type} {log : EventLog σ} {b : Blob} {path : FilePath} {p : Params} {x : Extractor}

/-- An extractor and what it came back with. -/
abbrev Trial : Type := Extractor × Except Fault (Outcome Value)

/-- What extractors come back with if they are set to work one after another, each of them once. -/
def workAll (b : Blob) (path : FilePath) (p : Params) : List Extractor → Outside → List Trial × Outside
  | [], w => ([], w)
  | x :: xs, w =>
    let first := (x.extract b path p).run (w.log (.invoked x.name))
    let rest := workAll b path p xs first.2
    ((x, first.1) :: rest.1, rest.2)

/-- The extractor gave an outcome, or raised neither a missing parameter nor a fault of the log nor the
demand to stop. -/
def Trial.Stays (a : Trial) : Prop :=
  ∀ f, a.2 = .error f → f.kind ≠ .missingParameter ∧ f.kind.isStorage = false ∧ f.kind.isOrdinary = true

/-- The outcome that is reported. A fault is an unforeseen failure. -/
def Trial.outcome (a : Trial) : Extractor × Outcome Value :=
  match a.2 with
  | .ok o => (a.1, o)
  | .error f => (a.1, .failed (.unexpected f))

/-- One attempt: its start is stored, the extractor comes back, and its end is stored if it has one. -/
def Trial.deeds (b : Blob) (p : Params) (a : Trial) : List Deed :=
  .stored (ran b p a.1.name .started []) :: .ended a.1 a.2 ::
    (match a.outcome.2 with
      | .success _ => [.stored (ran b p a.1.name .success [])]
      | .failed f => [.stored (ran b p a.1.name .failure [⟨f.message, Value.ofText? f.stackTrace⟩])]
      | .interrupted _ => [])

/-- A whole dispatch without a disturbance. -/
def deedsOf (b : Blob) (p : Params) (as : List Trial) : List Deed :=
  .stored (detected b p (as.map fun a => a.1.name)) :: as.flatMap (Trial.deeds b p)

theorem workAll_fst (xs : List Extractor) (w : Outside) : (workAll b path p xs w).1.map Prod.fst = xs := by
  induction xs generalizing w with
  | nil => rfl
  | cons x xs ih => exact congrArg (x :: ·) (ih _)

theorem map_name_fst (as : List Trial) : (as.map Prod.fst).map Extractor.name = as.map fun a => a.1.name :=
  List.map_map

theorem Trial.Stays.settles {a : Trial} (h : a.Stays) : Settles a.2 a.outcome.2 := by
  obtain ⟨x, r⟩ := a
  cases r with
  | ok o => exact .returned o
  | error f =>
    obtain ⟨hm, hs, ho⟩ := h f rfl
    exact .unforeseen hm hs ho

theorem Trial.outcome_fst (a : Trial) : a.outcome.1 = a.1 := by
  obtain ⟨x, r⟩ := a
  cases r <;> rfl

theorem Trial.deeds_eq (b : Blob) (p : Params) (a : Trial) :
    a.deeds b p = .stored (ran b p a.1.name .started []) :: .ended a.1 a.2 ::
      (closing? b p a.1.name a.outcome.2).toList.map .stored := by
  rw [deeds]
  cases a.outcome.2 <;> rfl

theorem exists_stored (b : Blob) (path : FilePath) (p : Params) {s : Store} {n : Nat}
    (h : s.Takes (n + 1)) {e : Event} (he : e.IsFresh) (w : Outside) :
    ∃ s', (Deed.stored e).Does Store.log b path p (s, w) (s', w) ∧ s'.Takes n := by
  obtain ⟨s', hr, hs'⟩ := h.insertEvent he
  exact ⟨s', ⟨hr, rfl⟩, hs'⟩

theorem exists_attempt {s : Store} {n : Nat} (x : Extractor) (w : Outside) :
    let back := (x.extract b path p).run (w.log (.invoked x.name))
    s.Takes (((Trial.deeds b p (x, back.1)).filterMap Deed.stored?).length + n) →
    ∃ s', Performed Store.log b path p (Trial.deeds b p (x, back.1)) (s, w) (s', back.2) ∧ s'.Takes n := by
  intro back h
  rw [Trial.deeds_eq] at h ⊢
  have hx (t : Store) : (Deed.ended x back.1).Does Store.log b path p (t, w) (t, back.2) := ⟨rfl, rfl⟩
  cases hc : closing? b p x.name (Trial.outcome (x, back.1)).2 with
  | none =>
    rw [hc] at h
    have h : s.Takes (1 + n) := h
    rw [Nat.add_comm] at h
    obtain ⟨s₁, hs, hn⟩ := exists_stored b path p h (isFresh_ran b p x.name .started []) w
    exact ⟨s₁, .cons hs (.single (hx s₁)), hn⟩
  | some e =>
    rw [hc] at h
    have h : s.Takes (2 + n) := h
    rw [Nat.add_comm] at h
    obtain ⟨s₁, hs, hn⟩ := exists_stored b path p h (isFresh_ran b p x.name .started []) w
    obtain ⟨s₂, hs', hn'⟩ := exists_stored b path p hn (isFresh_of_closing? hc) back.2
    exact ⟨s₂, .cons hs (.cons (hx s₁) (.single hs')), hn'⟩

theorem exists_attempts (xs : List Extractor) {s : Store} {n : Nat} (w : Outside) :
    let worked := workAll b path p xs w
    s.Takes (((worked.1.flatMap (Trial.deeds b p)).filterMap Deed.stored?).length + n) →
    ∃ s', Performed Store.log b path p (worked.1.flatMap (Trial.deeds b p)) (s, w) (s', worked.2) ∧
      s'.Takes n := by
  induction xs generalizing s w with
  | nil =>
    intro _ h
    have h : s.Takes (0 + n) := h
    rw [Nat.zero_add] at h
    exact ⟨s, .nil (s, w), h⟩
  | cons x xs ih =>
    intro worked h
    have hw : worked.1.flatMap (Trial.deeds b p) = _ ++ _ := List.flatMap_cons
    rw [hw] at h ⊢
    rw [List.filterMap_append, List.length_append, Nat.add_assoc] at h
    obtain ⟨s₁, h₁, hn₁⟩ := exists_attempt x w h
    obtain ⟨s₂, h₂, hn₂⟩ := ih _ hn₁
    exact ⟨s₂, h₁.append h₂, hn₂⟩

theorem exists_deeds (b : Blob) (path : FilePath) (p : Params) (xs : List Extractor) {s : Store}
    (h : s.IsWritable) (w : Outside) :
    ∃ s', Performed Store.log b path p (deedsOf b p (workAll b path p xs w).1) (s, w)
      (s', (workAll b path p xs w).2) := by
  have hd := isFresh_detected b p ((workAll b path p xs w).1.map fun a => a.1.name)
  obtain ⟨s₁, hstored, hs₁⟩ := exists_stored b path p (h.takes _) hd w
  obtain ⟨s', hp, -⟩ := exists_attempts (n := 0) xs w hs₁
  exact ⟨s', .cons hstored hp⟩

theorem Trial.Stays.attempt {a : Trial} (ha : a.Stays) : Attempt b p a.1 (a.deeds b p) (.ok a.outcome.2) := by
  rw [Trial.deeds_eq]
  cases hc : closing? b p a.1.name a.outcome.2 with
  | some e => exact .closed ha.settles hc
  | none => exact ha.settles.attempt_of_untold hc

theorem attempts_deeds {as : List Trial} (ha : ∀ a ∈ as, a.Stays) :
    Attempts b p (as.map Prod.fst) (as.flatMap (Trial.deeds b p)) (.ok (as.map Trial.outcome)) := by
  induction as with
  | nil => exact .nil
  | cons a as ih =>
    obtain ⟨hfirst, hrest⟩ := List.forall_mem_cons.mp ha
    have h : Attempts b p (a.1 :: as.map Prod.fst) (a.deeds b p ++ as.flatMap (Trial.deeds b p))
        ((Except.ok (as.map Trial.outcome)).map ((a.1, a.outcome.2) :: ·)) := .next hfirst.attempt (ih hrest)
    have ho : a.outcome = (a.1, a.outcome.2) := by rw [← a.outcome_fst]
    rw [List.map_cons, List.map_cons, List.flatMap_cons, ho]
    exact h

/-- What an undisturbed dispatch does is one of the courses that a dispatch can take. -/
theorem course_deedsOf {as : List Trial} (ha : ∀ a ∈ as, a.Stays) :
    ∃ report, Course b p (as.map Prod.fst) (deedsOf b p as) (.ok report) := by
  rw [deedsOf, ← map_name_fst]
  exact ⟨_, .detected (attempts_deeds ha)⟩

/-- If the deeds of an undisturbed dispatch can be done, on any log, then the dispatch does them. -/
theorem run_dispatch_of_deeds {registry : Registry} {as : List Trial} (ha : ∀ a ∈ as, a.Stays)
    (hx : as.map Prod.fst = registry.candidates b.mimeType b.size) {st st' : σ × Outside}
    (h : Performed log b path p (deedsOf b p as) st st') :
    (dispatch log registry b path p).run st =
      (.ok (reported (.start b.id (as.map fun a => a.1.name)) (as.map Trial.outcome)), st') := by
  have hc : Course b p (registry.candidates b.mimeType b.size) (deedsOf b p as)
      (.ok (reported (.start b.id (as.map fun a => a.1.name)) (as.map Trial.outcome))) := by
    rw [← hx, deedsOf, ← map_name_fst]
    exact .detected (attempts_deeds ha)
  exact run_dispatch_of_course hc h

end Dispatch
end Intake
