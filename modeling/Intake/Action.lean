import Intake.Fault

/-!
# Actions

An action changes a state and ends with a result or a fault. What it changed before a fault stays
changed.
-/
namespace Intake

/-- What changes a state of type `σ` and ends with an `α` or a fault. -/
def Action (σ α : Type) : Type := σ → Except Fault α × σ

namespace Action

variable {σ τ α β : Type}

def run (m : Action σ α) (s : σ) : Except Fault α × σ := m s

instance : Monad (Action σ) where
  pure a := fun s => (.ok a, s)
  bind m f := fun s =>
    match m s with
    | (.ok a, s) => f a s
    | (.error e, s) => (.error e, s)

def fail (e : Fault) : Action σ α := fun s => (.error e, s)

def ofExcept : Except Fault α → Action σ α
  | .ok a => pure a
  | .error e => fail e

def get : Action σ σ := fun s => (.ok s, s)

def set (s : σ) : Action σ Unit := fun _ => (.ok (), s)

def modify (f : σ → σ) : Action σ Unit := fun s => (.ok (), f s)

def take (f : σ → α × σ) : Action σ α := fun s => (.ok (f s).1, (f s).2)

/-- Deals with the fault of an action, in the state in which the fault left it. -/
def onFault (m : Action σ α) (handle : Fault → Action σ α) : Action σ α := fun s =>
  match m s with
  | (.ok a, s) => (.ok a, s)
  | (.error e, s) => handle e s

/-- Changes the state after an action, however it ended. -/
def andThen (m : Action σ α) (f : σ → σ) : Action σ α := fun s => ((m s).1, f (m s).2)

def first (m : Action σ α) : Action (σ × τ) α := fun s => ((m s.1).1, (m s.1).2, s.2)

def second (m : Action τ α) : Action (σ × τ) α := fun s => ((m s.2).1, s.1, (m s.2).2)

/-- Lends an action a second part of the state, which is forgotten afterwards. -/
def lend (t : τ) (m : Action (σ × τ) α) : Action σ α := fun s => ((m (s, t)).1, (m (s, t)).2.1)

@[simp] theorem run_pure (a : α) (s : σ) : run (pure a) s = (.ok a, s) := rfl

@[simp] theorem run_fail (e : Fault) (s : σ) : run (fail e : Action σ α) s = (.error e, s) := rfl

@[simp] theorem run_modify (f : σ → σ) (s : σ) : run (modify f) s = (.ok (), f s) := rfl

@[simp] theorem run_take (f : σ → α × σ) (s : σ) : run (take f) s = (.ok (f s).1, (f s).2) := rfl

@[simp] theorem run_get (s : σ) : run (get : Action σ σ) s = (.ok s, s) := rfl

@[simp] theorem run_set (t s : σ) : run (set t) s = (.ok (), t) := rfl

@[simp] theorem run_ofExcept (x : Except Fault α) (s : σ) : run (ofExcept x) s = (x, s) := by
  cases x <;> rfl

@[simp] theorem run_first (m : Action σ α) (s : σ) (t : τ) :
    run (first m) (s, t) = ((m.run s).1, (m.run s).2, t) := rfl

@[simp] theorem run_second (m : Action τ α) (s : σ) (t : τ) :
    run (second m) (s, t) = ((m.run t).1, s, (m.run t).2) := rfl

@[simp] theorem run_lend (m : Action (σ × τ) α) (s : σ) (t : τ) :
    run (lend t m) s = ((m.run (s, t)).1, (m.run (s, t)).2.1) := rfl

theorem run_bind (m : Action σ α) (f : α → Action σ β) (s : σ) :
    run (m >>= f) s = match m.run s with
      | (.ok a, s) => (f a).run s
      | (.error e, s) => (.error e, s) := rfl

theorem run_onFault (m : Action σ α) (handle : Fault → Action σ α) (s : σ) :
    run (m.onFault handle) s = match m.run s with
      | (.ok a, s) => (.ok a, s)
      | (.error e, s) => (handle e).run s := rfl

theorem run_bind_of_ok {m : Action σ α} {f : α → Action σ β} {s s' : σ} {a : α}
    (h : m.run s = (.ok a, s')) : run (m >>= f) s = (f a).run s' := by
  rw [run_bind, h]

theorem run_bind_of_error {m : Action σ α} {f : α → Action σ β} {s s' : σ} {e : Fault}
    (h : m.run s = (.error e, s')) : run (m >>= f) s = (.error e, s') := by
  rw [run_bind, h]

theorem run_bind_eq_ok_iff {m : Action σ α} {f : α → Action σ β} {s s' : σ} {b : β} :
    run (m >>= f) s = (.ok b, s') ↔ ∃ a s₁, m.run s = (.ok a, s₁) ∧ (f a).run s₁ = (.ok b, s') := by
  rw [run_bind]
  rcases m.run s with ⟨_ | a, s₁⟩
  · simp
  · simp [and_assoc]

theorem run_bind_eq_error_iff {m : Action σ α} {f : α → Action σ β} {s s' : σ} {e : Fault} :
    run (m >>= f) s = (.error e, s') ↔
      m.run s = (.error e, s') ∨ ∃ a s₁, m.run s = (.ok a, s₁) ∧ (f a).run s₁ = (.error e, s') := by
  rw [run_bind]
  rcases m.run s with ⟨_ | a, s₁⟩
  · simp
  · simp [and_assoc]

theorem run_onFault_of_ok {m : Action σ α} {handle : Fault → Action σ α} {s s' : σ} {a : α}
    (h : m.run s = (.ok a, s')) : run (m.onFault handle) s = (.ok a, s') := by
  rw [run_onFault, h]

theorem run_onFault_of_error {m : Action σ α} {handle : Fault → Action σ α} {s s' : σ} {e : Fault}
    (h : m.run s = (.error e, s')) : run (m.onFault handle) s = (handle e).run s' := by
  rw [run_onFault, h]

private theorem bind_pure_id (m : Action σ α) : (m >>= fun a => pure (id a)) = m := by
  funext s
  show run (m >>= fun a => pure (id a)) s = m s
  rw [run_bind, run]
  rcases m s with ⟨_ | _, _⟩ <;> rfl

private theorem bind_bind {γ : Type} (m : Action σ α) (f : α → Action σ β) (g : β → Action σ γ) :
    m >>= f >>= g = m >>= fun a => f a >>= g := by
  funext s
  show run (m >>= f >>= g) s = run (m >>= fun a => f a >>= g) s
  simp only [run_bind]
  rcases m.run s with ⟨_ | _, _⟩ <;> rfl

instance : LawfulMonad (Action σ) := LawfulMonad.mk' _ bind_pure_id (fun _ _ => rfl) bind_bind

end Action

end Intake
