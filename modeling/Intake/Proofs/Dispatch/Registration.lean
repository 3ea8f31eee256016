import Intake.Proofs.Extractor.Registry
import Intake.Service

/-!
# The order of registration

Of extractors that are to be registered, one after another, the first of every name gets into the registry.
Candidates, and so what a dispatch does, depend on which extractors those are and not on their order.
-/
namespace Intake

theorem dispatch_congr {σ : Type} (log : EventLog σ) {r r' : Registry} {b : Blob}
    (h : r.candidates b.mimeType b.size = r'.candidates b.mimeType b.size) (path : FilePath) (p : Params) :
    dispatch log r b path p = dispatch log r' b path p := by
  simp only [dispatch, h]

/-- An extractor is the first of its name among some. -/
def Extractor.IsFirst (xs : List Extractor) (x : Extractor) : Prop :=
  (xs.find? fun y => y.name == x.name) = some x

theorem Extractor.isFirst_cons {xs : List Extractor} {x y : Extractor} :
    IsFirst (y :: xs) x ↔ x = y ∨ x.name ≠ y.name ∧ IsFirst xs x := by
  by_cases h : y.name = x.name
  · simp [IsFirst, h, eq_comm]
  · have hn : x ≠ y := fun e => h (congrArg name e).symm
    have hb : (y.name == x.name) = false := beq_false_of_ne h
    simp [IsFirst, hb, hn, Ne.symm h]

namespace Service

open Extractor

/-- What calls to register some extractors answer, one after another, and the service after them. A call that is
rejected does not keep the next one from being made. -/
def registerAll : List Extractor → Service → List (Except Fault String) × Service
  | [], s => ([], s)
  | x :: rest, s =>
    let now := (register x).run s
    let later := registerAll rest now.2
    (now.1 :: later.1, later.2)

/-- The names that are taken. -/
def names (s : Service) : List String := s.registry.extractors.map Extractor.name

variable {s : Service} {x : Extractor}

theorem run_register (x : Extractor) (s : Service) :
    (register x).run s = match s.registry.register x with
      | .ok r => (.ok x.name, { s with registry := r })
      | .error f => (.error f, s) := by
  rw [register, Action.run_bind_of_ok (Action.run_get s), Action.run_bind, Action.run_ofExcept]
  cases s.registry.register x <;> rfl

theorem run_register_of_taken (h : x.name ∈ s.names) :
    (register x).run s = (.error (.duplicateExtractor x.name), s) := by
  rw [run_register, (Registry.register_eq_error_iff _ _ _).mpr ⟨h, rfl⟩]

theorem run_register_of_free (h : x.name ∉ s.names) :
    ∃ r : Registry, r.extractors = s.registry.extractors ++ [x] ∧
      (register x).run s = (.ok x.name, { s with registry := r }) := by
  obtain ⟨r, hr, hx⟩ : ∃ r, s.registry.register x = .ok r ∧ r.extractors = s.registry.extractors ++ [x] :=
    ⟨_, dif_neg h, rfl⟩
  exact ⟨r, hx, by rw [run_register, hr]⟩

theorem registerAll_append (xs ys : List Extractor) (s : Service) :
    registerAll (xs ++ ys) s = ((registerAll xs s).1 ++ (registerAll ys (registerAll xs s).2).1,
      (registerAll ys (registerAll xs s).2).2) := by
  induction xs generalizing s with
  | nil => rfl
  | cons x xs ih => rw [List.cons_append, registerAll, ih, registerAll, List.cons_append]

theorem length_registerAll (xs : List Extractor) (s : Service) : (registerAll xs s).1.length = xs.length := by
  induction xs generalizing s with
  | nil => rfl
  | cons x xs ih => rw [registerAll, List.length_cons, ih, List.length_cons]

/-- What is registered was there before, or is the first of a name that was free. -/
theorem mem_registerAll (xs : List Extractor) (s : Service) (x : Extractor) :
    x ∈ (registerAll xs s).2.registry.extractors ↔
      x ∈ s.registry.extractors ∨ x.name ∉ s.names ∧ IsFirst xs x := by
  induction xs generalizing s with
  | nil => simp [registerAll, IsFirst]
  | cons y xs ih =>
    rw [registerAll, isFirst_cons]
    by_cases hy : y.name ∈ s.names
    · rw [run_register_of_taken hy, ih]
      have hne (hx : x.name ∉ s.names) : x.name ≠ y.name := fun e => hx (e ▸ hy)
      have hxy (hx : x.name ∉ s.names) : x ≠ y := fun e => hne hx (congrArg name e)
      grind
    · obtain ⟨r, hr, hrun⟩ := run_register_of_free hy
      have hn : names { s with registry := r } = s.names ++ [y.name] := by
        rw [names, hr, List.map_append]
        rfl
      rw [hrun, ih, hn, hr]
      simp only [List.mem_append, List.mem_singleton]
      grind

theorem answer_registerAll (front : List Extractor) (x : Extractor) (rest : List Extractor) (s : Service) :
    (registerAll (front ++ x :: rest) s).1[front.length]? =
      some ((register x).run (registerAll front s).2).1 := by
  rw [registerAll_append, registerAll, List.getElem?_append_right (Nat.le_of_eq (length_registerAll front s)),
    length_registerAll, Nat.sub_self, List.getElem?_cons_zero]

theorem registerAll_of_taken (front : List Extractor) {x : Extractor} (rest : List Extractor) {s : Service}
    (h : x.name ∈ (registerAll front s).2.names) :
    registerAll (front ++ rest) s = ((registerAll (front ++ x :: rest) s).1.eraseIdx front.length,
      (registerAll (front ++ x :: rest) s).2) := by
  have hl : front.length = (registerAll front s).1.length := (length_registerAll front s).symm
  rw [registerAll_append, registerAll_append, registerAll, run_register_of_taken h, hl,
    List.eraseIdx_append_of_length_le (Nat.le_refl _), Nat.sub_self, List.eraseIdx_cons_zero]

/-- A call to register an extractor is rejected just when its name is taken, and then all is as if it had not been
made. Candidates are the registered extractors that can process the media type, in the strict order of cost, priority
and name. Registries that hold the same extractors have the same candidates, in whatever order they were filled, and
a dispatch does the same with each of them. -/
theorem registrations_unordered (xs : List Extractor) {s : Service} (hs : s.registry = .empty) :
    let final := registerAll xs s
    (∀ front x rest, xs = front ++ x :: rest →
      x.name ∈ (registerAll front s).2.names ∧ (∃ f, final.1[front.length]? = some (.error f) ∧ f.kind = .value) ∧
          registerAll (front ++ rest) s = (final.1.eraseIdx front.length, final.2) ∨
        x.name ∉ (registerAll front s).2.names ∧ final.1[front.length]? = some (.ok x.name)) ∧
    (∀ x, x ∈ final.2.registry.extractors ↔ IsFirst xs x) ∧
    (∀ mimeType size,
      let candidates := final.2.registry.candidates mimeType size
      (∀ x, x ∈ candidates ↔ IsFirst xs x ∧ x.canProcess mimeType = true) ∧ candidates.Nodup ∧
        candidates.Pairwise (Precedes mimeType size)) ∧
    ∀ r : Registry, (∀ x, x ∈ r.extractors ↔ x ∈ final.2.registry.extractors) →
      (∀ mimeType size, r.candidates mimeType size = final.2.registry.candidates mimeType size) ∧
        ∀ (σ : Type) (log : EventLog σ) b path p,
          Intake.dispatch log r b path p = Intake.dispatch log final.2.registry b path p := by
  intro final
  have hmem (x : Extractor) : x ∈ final.2.registry.extractors ↔ IsFirst xs x := by
    simp [final, mem_registerAll, names, hs, Registry.empty]
  refine ⟨?_, hmem, ?_, ?_⟩
  · rintro front x rest rfl
    have hanswer := answer_registerAll front x rest s
    by_cases hx : x.name ∈ (registerAll front s).2.names
    · rw [run_register_of_taken hx] at hanswer
      exact .inl ⟨hx, ⟨_, hanswer, rfl⟩, registerAll_of_taken front rest hx⟩
    · obtain ⟨r, -, hr⟩ := run_register_of_free hx
      rw [hr] at hanswer
      exact .inr ⟨hx, hanswer⟩
  · intro mimeType size candidates
    refine ⟨fun x => ?_, .of_map _ (Registry.nodup_candidates _ mimeType size),
      Registry.pairwise_candidates _ mimeType size⟩
    rw [Registry.mem_candidates, hmem]
  · intro r hr
    have hc := Registry.candidates_eq_of_same hr
    exact ⟨hc, fun σ log b path p => dispatch_congr log (hc b.mimeType b.size) path p⟩

/-- The third call asks for a name that is taken, and its extractor would be the cheapest. -/
theorem registrations_unordered_of_taken :
    let zeta := elsewhere "Zeta" ["text/plain"] 5 0 0
    let alpha := elsewhere "Alpha" ["text/plain"] 5 0 0
    let urgent := elsewhere "Urgent" ["text/plain", "image/png"] 5 0 (-1)
    let xs := [zeta, alpha, elsewhere "Zeta" ["text/plain"] 1 0 0, urgent]
    let s := Service.start 0 [] .kept
    let final := registerAll xs s
    s.registry = .empty ∧
      final.1 = [.ok "Zeta", .ok "Alpha", .error (.duplicateExtractor "Zeta"), .ok "Urgent"] ∧
      final.2.registry.candidates "text/plain" 100 = [urgent, alpha, zeta] := by
  intro zeta alpha urgent xs s final
  let r : Registry := ⟨[urgent, alpha, zeta], by decide⟩
  obtain ⟨-, -, -, hsame⟩ := registrations_unordered xs (s := s) rfl
  have hextractors : final.2.registry.extractors = [zeta, alpha, urgent] := rfl
  obtain ⟨hc, -⟩ := hsame r fun x => by
    rw [show (registerAll xs s).2.registry.extractors = _ from hextractors]
    simp only [r, List.mem_cons, List.not_mem_nil, or_false]
    grind
  refine ⟨rfl, rfl, ?_⟩
  rw [← hc]
  exact List.mergeSort_of_pairwise (by decide)

end Service
end Intake
