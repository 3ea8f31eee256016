import Intake.Command
import Intake.Extractor.Basic
import Intake.Transcript

/-!
# What tools and signs of life leave alone

Lines that are kept and forwarded, and tools that are run, deliver nothing. A view of the outside that does
not show what they change shows the same before and after them.
-/
namespace Intake

/-- An action leaves as it was what a view of the state shows. -/
def Action.Keeps {σ γ α : Type} (f : σ → γ) (m : Action σ α) : Prop := ∀ s, f (m.run s).2 = f s

namespace Action.Keeps

variable {σ τ γ α β : Type} {f : σ → γ}

theorem pure (a : α) : Keeps f (Pure.pure a : Action σ α) := fun _ => rfl

theorem fail (e : Fault) : Keeps f (Action.fail e : Action σ α) := fun _ => rfl

theorem bind {m : Action σ α} {k : α → Action σ β} (hm : Keeps f m) (hk : ∀ a, Keeps f (k a)) :
    Keeps f (m >>= k) := by
  intro s
  have h := hm s
  rw [run_bind]
  cases hr : m.run s with
  | mk r s' =>
    rw [hr] at h
    cases r with
    | ok a => exact (hk a s').trans h
    | error e => exact h

theorem onFault {m : Action σ α} {k : Fault → Action σ α} (hm : Keeps f m) (hk : ∀ e, Keeps f (k e)) :
    Keeps f (m.onFault k) := by
  intro s
  have h := hm s
  rw [run_onFault]
  cases hr : m.run s with
  | mk r s' =>
    rw [hr] at h
    cases r with
    | ok a => exact h
    | error e => exact (hk e s').trans h

theorem first {m : Action σ α} (hm : Keeps f m) : Keeps (fun s : σ × τ => f s.1) (Action.first m) :=
  fun s => hm s.1

theorem second (m : Action τ α) : Keeps (fun s : σ × τ => f s.1) (Action.second m) := fun _ => rfl

end Action.Keeps

/-- A view does not show the clock, the signs of life, or that a process exited or was killed. -/
structure Outside.Blind {γ : Type} (f : Outside → γ) : Prop where
  polls : ∀ w c, f { w with polls := c } = f w
  clock : ∀ w c, f { w with clock := c } = f w
  notifier : ∀ w c, f { w with notifier := c } = f w
  noted : ∀ w n, f (w.log (.noted n)) = f w
  noteRefused : ∀ w n, f (w.log (.noteRefused n)) = f w
  killed : ∀ w, f (w.log .killed) = f w

namespace Outside

variable {γ : Type} {f : Outside → γ}

theorem pop_fst {α : Type} (d : α) (l : List α) : (pop d l).1 = l.headD d := by cases l <;> rfl

theorem pop_snd {α : Type} (d : α) (l : List α) : (pop d l).2 = l.tail := by cases l <;> rfl

theorem Blind.sendNote (h : Blind f) (n : Note) : (Outside.sendNote n).Keeps f := by
  apply Action.Keeps.bind
  · exact fun w => h.notifier w _
  · intro reply
    cases reply with
    | fails e => exact .bind (fun w => h.noteRefused w n) fun _ => .fail e
    | done => exact fun w => h.noted w n
    | silence => exact fun w => h.noted w n

theorem run_forward {g : String → Action Outside Unit} {line : String} {n : Note} (hg : g line = Outside.sendNote n)
    (w : Outside) :
    (Transcript.forward (some g) line).run w =
      match w.notifier.headD .done with
      | .fails e =>
        (if e.kind = .storageWrite then .ok () else .error e,
          { w with notifier := w.notifier.tail }.log (.noteRefused n))
      | _ => (.ok (), { w with notifier := w.notifier.tail }.log (.noted n)) := by
  have hnext : nextNotifierReply.run w =
      (.ok (w.notifier.headD .done), { w with notifier := w.notifier.tail }) := by
    rw [← pop_fst, ← pop_snd .done]
    rfl
  rw [Transcript.forward, Action.run_onFault, hg, Outside.sendNote, Action.run_bind_of_ok hnext]
  cases w.notifier.headD .done with
  | done => rfl
  | silence => rfl
  | fails e =>
    by_cases he : e.kind = .storageWrite
    · simp [Action.run_bind, he]
    · simp [Action.run_bind, he]

theorem keeps_forward {send : Option (String → Action Outside Unit)}
    (hs : ∀ g ∈ send, ∀ line, (g line).Keeps f) (line : String) : (Transcript.forward send line).Keeps f := by
  cases send with
  | none => exact .pure ()
  | some g =>
    apply Action.Keeps.onFault (hs g rfl line)
    intro e
    split
    · exact .pure ()
    · exact .fail e

theorem Blind.append (h : Blind f) {send : Option (String → Action Outside Unit)}
    (hs : ∀ g ∈ send, ∀ line, (g line).Keeps f) (throttle : Float) (line : String) :
    (Transcript.append throttle send line).Keeps fun s => f s.1 := by
  refine .bind (.second _) fun _ => .bind (.first fun w => h.clock w _) fun now => .bind (.second _) fun t => ?_
  split
  · exact .bind (.second _) fun _ => .first (keeps_forward hs line)
  · exact .pure ()

theorem Blind.append_noteSender (h : Blind f) (notifies : Bool) (name : String) (b : Blob)
    (throttle : Float) (line : String) :
    (Transcript.append throttle (if notifies then some (Extractor.noteSender name b) else none) line).Keeps
      fun s => f s.1 := by
  apply h.append
  intro g hg line
  split at hg
  · cases hg
    exact h.sendNote _
  · cases hg

def started (w : Outside) : List Call :=
  w.journal.filterMap fun | .started c => some c | _ => none

theorem started_log (e : Entry) (w : Outside) :
    (w.log e).started = w.started ++ (match e with | .started c => [c] | _ => []) := by
  cases e <;> simp [started]

end Outside

namespace Command

variable {τ γ : Type} {f : Outside → γ} {sink : String → Action (Outside × τ) Unit}

/-- What follows the start of a tool that will go in some way. -/
def follow (c : Command) (sink : String → Action (Outside × τ) Unit) (p : ToolRun) :
    Action (Outside × τ) Result :=
  match p.startFault with
  | some e =>
    if e.kind = .fileNotFound then do
      c.nameTool
      sink e.message
      return ⟨notFoundCode, ""⟩
    else .fail e
  | none => do
    (deliver sink (linesOf p.stderr)).onFault fun e => do
      c.stop
      .fail e
    match p.stdoutFault with
    | some text => .fail (.raised .os text)
    | none => return ⟨exitCodeOf p.exitStatus, String.ofList (textOf p.stdout)⟩

def begun (c : Command) (w : Outside) : Outside :=
  { w with runs := w.runs.tail }.log (.started (c.call w.environment))

theorem run_eq_follow (c : Command) (s : Outside × τ) :
    (c.run sink).run s = (c.follow sink (s.1.runs.headD .quiet)).run (c.begun s.1, s.2) := by
  rw [← Outside.pop_fst, begun, ← Outside.pop_snd .quiet]
  rfl

theorem keeps_deliver {f : Outside × τ → γ} (hs : ∀ line, (sink line).Keeps f) (lines : List String) :
    (deliver sink lines).Keeps f := by
  induction lines with
  | nil => exact .pure ()
  | cons line lines ih => exact .bind (hs line) fun _ => ih

theorem keeps_nameTool {f : Outside × τ → γ} (c : Command) : (c.nameTool).Keeps f := by
  unfold nameTool
  split
  · exact .fail _
  · exact .pure ()

theorem keeps_stop (hf : Outside.Blind f) (c : Command) : (c.stop (τ := τ)).Keeps fun s => f s.1 := by
  refine .bind (.first fun w => hf.polls w _) fun exited => ?_
  split
  · exact .pure ()
  · exact .bind (keeps_nameTool c) fun _ => .first hf.killed

theorem keeps_follow (hf : Outside.Blind f) (hs : ∀ line, (sink line).Keeps fun s => f s.1) (c : Command)
    (p : ToolRun) : (c.follow sink p).Keeps fun s => f s.1 := by
  unfold follow
  split
  · split
    · exact .bind (keeps_nameTool c) fun _ => .bind (hs _) fun _ => .pure _
    · exact .fail _
  · refine .bind (.onFault (keeps_deliver hs _) fun e => ?_) fun _ => ?_
    · exact .bind (keeps_stop hf c) fun _ => .fail e
    · split
      · exact .fail _
      · exact .pure _

/-- A view that shows neither the runs to come nor the processes asked for is kept by a tool. -/
theorem keeps_run (hf : Outside.Blind f) (hr : ∀ c w, f (begun c w) = f w)
    (hs : ∀ line, (sink line).Keeps fun s => f s.1) (c : Command) :
    (c.run sink).Keeps fun s => f s.1 := by
  intro s
  rw [run_eq_follow]
  exact (keeps_follow hf hs c _ _).trans (hr c s.1)

theorem follow_ok {c : Command} {p : ToolRun} {s s' : Outside × τ} {r : Result}
    (h : (c.follow sink p).run s = (.ok r, s')) :
    r = ⟨notFoundCode, ""⟩ ∨ r = ⟨exitCodeOf p.exitStatus, String.ofList (textOf p.stdout)⟩ := by
  unfold follow at h
  split at h
  · split at h
    · obtain ⟨_, _, -, h⟩ := Action.run_bind_eq_ok_iff.mp h
      obtain ⟨_, _, -, h⟩ := Action.run_bind_eq_ok_iff.mp h
      cases h
      exact .inl rfl
    · cases h
  · obtain ⟨_, _, -, h⟩ := Action.run_bind_eq_ok_iff.mp h
    split at h
    · cases h
    · cases h
      exact .inr rfl

end Command
end Intake
