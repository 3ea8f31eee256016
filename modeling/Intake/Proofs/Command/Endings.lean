import Intake.Proofs.Extractor.Frames
import Mathlib

/-!
# How a run of a tool ends

A run ends in exactly one way. The start comes first, then the sink, then the text that the tool writes, and
then its exit status.
-/
namespace Intake

/-- How often a process was killed so far. -/
def Outside.kills (w : Outside) : Nat := w.journal.count .killed

theorem Outside.kills_log (e : Entry) (w : Outside) :
    (w.log e).kills = w.kills + if e = .killed then 1 else 0 := by
  rw [kills, journal_log, List.count_append, List.count_singleton]
  simp [kills]

/-- An outside that was asked whether a tool has exited. -/
def Outside.polled (w : Outside) : Outside := { w with polls := w.polls.tail }

theorem Outside.kills_polled (w : Outside) : w.polled.kills = w.kills := rfl

theorem Outside.run_nextPoll (w : Outside) : nextPoll.run w = (.ok (w.polls.headD false), w.polled) := by
  rw [polled, ← pop_fst, ← pop_snd false]
  rfl

namespace Command

section

variable {σ : Type} {sink : String → Action σ Unit}

/-- A sink takes lines one after another. -/
inductive Takes (sink : String → Action σ Unit) : List String → σ → σ → Prop
  | nil (s : σ) : Takes sink [] s s
  | cons {line : String} {lines : List String} {s s₁ s₂ : σ} (h : (sink line).run s = (.ok (), s₁))
      (ht : Takes sink lines s₁ s₂) : Takes sink (line :: lines) s s₂

/-- A sink takes the first `j` of some lines and raises a fault at the next one. -/
inductive Refuses (sink : String → Action σ Unit) (lines : List String) (j : Nat) (s : σ) (f : Fault) (s' : σ) :
    Prop
  | raise {line : String} {s₁ : σ} (hj : lines[j]? = some line) (ht : Takes sink (lines.take j) s s₁)
      (h : (sink line).run s₁ = (.error f, s'))

theorem Takes.deliver {lines : List String} {s s' : σ} (h : Takes sink lines s s') :
    (deliver sink lines).run s = (.ok (), s') := by
  induction h with
  | nil s => rfl
  | cons h _ ih => exact (Action.run_bind_of_ok h).trans ih

theorem Refuses.next {line : String} {lines : List String} {j : Nat} {s s₁ s' : σ} {f : Fault}
    (hl : (sink line).run s = (.ok (), s₁)) (h : Refuses sink lines j s₁ f s') :
    Refuses sink (line :: lines) (j + 1) s f s' := by
  obtain ⟨hj, ht, hr⟩ := h
  exact ⟨hj, .cons hl ht, hr⟩

theorem Refuses.deliver {lines : List String} {j : Nat} {s s' : σ} {f : Fault}
    (h : Refuses sink lines j s f s') : (deliver sink lines).run s = (.error f, s') := by
  obtain ⟨hj, ht, hr⟩ := h
  induction lines generalizing j s with
  | nil => cases hj
  | cons l lines ih =>
    cases j with
    | zero =>
      cases ht
      cases hj
      exact Action.run_bind_of_error hr
    | succ j =>
      cases ht with
      | cons hl ht => exact (Action.run_bind_of_ok hl).trans (ih hj ht)

theorem takes_or_refuses (sink : String → Action σ Unit) (lines : List String) (s : σ) :
    (∃ s', Takes sink lines s s') ∨ ∃ j f s', Refuses sink lines j s f s' := by
  induction lines generalizing s with
  | nil => exact .inl ⟨s, .nil s⟩
  | cons line lines ih =>
    cases hr : (sink line).run s with
    | mk r s₁ =>
      cases r with
      | error f => exact .inr ⟨0, f, s₁, rfl, .nil s, hr⟩
      | ok u =>
        obtain ⟨s', ht⟩ | ⟨j, f, s', hf⟩ := ih s₁
        · exact .inl ⟨s', .cons hr ht⟩
        · exact .inr ⟨j + 1, f, s', hf.next hr⟩

theorem exists_takes (hk : ∀ line s, ∃ s', (sink line).run s = (.ok (), s')) (lines : List String) (s : σ) :
    ∃ s', Takes sink lines s s' := by
  induction lines generalizing s with
  | nil => exact ⟨s, .nil s⟩
  | cons line lines ih =>
    obtain ⟨s₁, hr⟩ := hk line s
    obtain ⟨s', ht⟩ := ih s₁
    exact ⟨s', .cons hr ht⟩

theorem Takes.not_refuses {lines : List String} {s s' s'' : σ} {j : Nat} {f : Fault} (h : Takes sink lines s s') :
    ¬Refuses sink lines j s f s'' := by
  intro hr
  have := h.deliver.symm.trans hr.deliver
  cases this

theorem Refuses.state_unique {lines : List String} {s s' s'' : σ} {j k : Nat} {f g : Fault}
    (h : Refuses sink lines j s f s') (h' : Refuses sink lines k s g s'') : s' = s'' :=
  (Prod.mk.inj (h.deliver.symm.trans h'.deliver)).2

theorem Refuses.unique {lines : List String} {s s' s'' : σ} {j k : Nat} {f g : Fault}
    (h : Refuses sink lines j s f s') (h' : Refuses sink lines k s g s'') : j = k := by
  obtain ⟨hj, ht, hr⟩ := h
  obtain ⟨hk, ht', hr'⟩ := h'
  induction lines generalizing j k s with
  | nil => cases hj
  | cons l lines ih =>
    cases j with
    | zero =>
      cases k with
      | zero => rfl
      | succ k =>
        cases ht
        cases hj
        cases ht' with
        | cons hl => cases hr.symm.trans hl
    | succ j =>
      cases ht with
      | cons hl ht =>
        cases k with
        | zero =>
          cases ht'
          cases hk
          cases hr'.symm.trans hl
        | succ k =>
          cases ht' with
          | cons hl' ht' =>
            obtain rfl := (Prod.mk.inj (hl.symm.trans hl')).2
            rw [ih hj ht hk ht']

end

section

variable {τ : Type}

/-- The ways in which a run can end. -/
inductive Way where
  /-- There is no such tool, and the sink was told so. -/
  | missing
  /-- There is no such tool, and the sink would not hear it. -/
  | unheard
  /-- The tool could not be started. -/
  | unstarted
  /-- The sink raised a fault when it had taken some lines, and the tool was still running. -/
  | refused (taken : Nat)
  /-- The sink raised a fault when it had taken some lines, and the tool had exited by then. -/
  | outlasted (taken : Nat)
  /-- The text of the tool could not be read. -/
  | unread
  | finished
  /-- There is no tool, and no word to call it by. -/
  | nameless
  /-- The sink raised a fault, and there is no word to call the tool by, which was still running. -/
  | abandoned (taken : Nat)
  deriving DecidableEq, Repr

/-- How often a tool is killed. -/
def Way.kills : Way → Nat
  | refused _ => 1
  | _ => 0

/-- How a run ends that goes in some way from a state on, in which the tool was asked for. What is not said
to happen does not happen: the state is the one in which the sink left it. -/
inductive Ending (c : Command) (sink : String → Action (Outside × τ) Unit) (p : ToolRun) (s : Outside × τ) :
    Way → Except Fault Result → Outside × τ → Prop
  | missing {e : Fault} {s' : Outside × τ} (hp : p.startFault = some e) (he : e.kind = .fileNotFound)
      (hc : c.words ≠ []) (hs : Takes sink [e.message] s s') : Ending c sink p s .missing (.ok ⟨127, ""⟩) s'
  | unheard {e f : Fault} {j : Nat} {s' : Outside × τ} (hp : p.startFault = some e) (he : e.kind = .fileNotFound)
      (hc : c.words ≠ []) (hs : Refuses sink [e.message] j s f s') : Ending c sink p s .unheard (.error f) s'
  | unstarted {e : Fault} (hp : p.startFault = some e) (he : e.kind ≠ .fileNotFound) :
      Ending c sink p s .unstarted (.error e) s
  | refused {j : Nat} {f : Fault} {s' : Outside × τ} (hp : p.startFault = none) (hc : c.words ≠ [])
      (hs : Refuses sink (linesOf p.stderr) j s f s') (hx : s'.1.polls.headD false = false) :
      Ending c sink p s (.refused j) (.error f) (s'.1.polled.log .killed, s'.2)
  | outlasted {j : Nat} {f : Fault} {s' : Outside × τ} (hp : p.startFault = none)
      (hs : Refuses sink (linesOf p.stderr) j s f s') (hx : s'.1.polls.headD false = true) :
      Ending c sink p s (.outlasted j) (.error f) (s'.1.polled, s'.2)
  | unread {text : String} {s' : Outside × τ} (hp : p.startFault = none)
      (hs : Takes sink (linesOf p.stderr) s s') (ho : p.stdoutFault = some text) :
      Ending c sink p s .unread (.error (.raised .os text)) s'
  | finished {s' : Outside × τ} (hp : p.startFault = none) (hs : Takes sink (linesOf p.stderr) s s')
      (ho : p.stdoutFault = none) :
      Ending c sink p s .finished (.ok ⟨exitCodeOf p.exitStatus, String.ofList (textOf p.stdout)⟩) s'
  | nameless {e : Fault} (hp : p.startFault = some e) (he : e.kind = .fileNotFound) (hc : c.words = []) :
      Ending c sink p s .nameless (.error .emptyCommand) s
  | abandoned {j : Nat} {f : Fault} {s' : Outside × τ} (hp : p.startFault = none) (hc : c.words = [])
      (hs : Refuses sink (linesOf p.stderr) j s f s') (hx : s'.1.polls.headD false = false) :
      Ending c sink p s (.abandoned j) (.error .emptyCommand) (s'.1.polled, s'.2)

variable {c : Command} {sink : String → Action (Outside × τ) Unit} {p : ToolRun} {s s' s'' : Outside × τ}
  {way way' : Way} {r r' : Except Fault Result}

theorem nameTool_eq (hc : c.words ≠ []) : (c.nameTool : Action (Outside × τ) Unit) = pure () := by
  simp [nameTool, hc]

theorem run_stop_of_exited (hx : s.1.polls.headD false = true) :
    (c.stop).run s = (.ok (), s.1.polled, s.2) := by
  rw [stop, Action.run_bind, Action.run_first, Outside.run_nextPoll, hx]
  rfl

theorem run_stop_of_running (hx : s.1.polls.headD false = false) :
    (c.stop).run s =
      if c.words = [] then (.error .emptyCommand, s.1.polled, s.2) else (.ok (), s.1.polled.log .killed, s.2) := by
  rw [stop, Action.run_bind, Action.run_first, Outside.run_nextPoll, hx]
  by_cases hc : c.words = []
  · rw [if_pos hc, nameTool, hc]
    rfl
  · rw [if_neg hc, nameTool_eq hc]
    rfl

theorem follow_of_missing {e : Fault} (hp : p.startFault = some e) (he : e.kind = .fileNotFound)
    (hc : c.words ≠ []) :
    c.follow sink p = deliver sink [e.message] >>= fun _ => pure ⟨notFoundCode, ""⟩ := by
  rw [Command.follow, hp]
  dsimp only
  rw [if_pos he, nameTool_eq hc, pure_bind, deliver, deliver, bind_pure]

theorem follow_of_started (hp : p.startFault = none) :
    c.follow sink p = (deliver sink (linesOf p.stderr)).onFault (fun e => do
        c.stop
        .fail e) >>= fun _ =>
      match p.stdoutFault with
      | some text => .fail (.raised .os text)
      | none => pure ⟨exitCodeOf p.exitStatus, String.ofList (textOf p.stdout)⟩ := by
  cases p
  cases hp
  rfl

theorem run_follow_of_refuses {j : Nat} {f : Fault} (hp : p.startFault = none)
    (hs : Refuses sink (linesOf p.stderr) j s f s') :
    (c.follow sink p).run s = match (c.stop).run s' with
      | (.ok _, s'') => (.error f, s'')
      | (.error e, s'') => (.error e, s'') := by
  rw [follow_of_started hp, Action.run_bind, Action.run_onFault_of_error hs.deliver, Action.run_bind]
  rcases (c.stop).run s' with ⟨_ | _, _⟩ <;> rfl

theorem Ending.run_follow (h : c.Ending sink p s way r s') : (c.follow sink p).run s = (r, s') := by
  cases h with
  | missing hp he hc hs =>
    rw [follow_of_missing hp he hc, Action.run_bind_of_ok hs.deliver]
    rfl
  | unheard hp he hc hs => rw [follow_of_missing hp he hc, Action.run_bind_of_error hs.deliver]
  | unstarted hp he =>
    rw [Command.follow, hp]
    dsimp only
    rw [if_neg he]
    rfl
  | refused hp hc hs hx =>
    rw [run_follow_of_refuses hp hs, run_stop_of_running hx, if_neg hc]
  | outlasted hp hs hx => rw [run_follow_of_refuses hp hs, run_stop_of_exited hx]
  | unread hp hs ho =>
    rw [follow_of_started hp, Action.run_bind_of_ok (Action.run_onFault_of_ok hs.deliver), ho]
    rfl
  | finished hp hs ho =>
    rw [follow_of_started hp, Action.run_bind_of_ok (Action.run_onFault_of_ok hs.deliver), ho]
    rfl
  | nameless hp he hc =>
    rw [Command.follow, hp]
    dsimp only
    rw [if_pos he, nameTool, hc]
    rfl
  | abandoned hp hc hs hx =>
    rw [run_follow_of_refuses hp hs, run_stop_of_running hx, if_pos hc]

theorem exists_ending (c : Command) (sink : String → Action (Outside × τ) Unit) (p : ToolRun)
    (s : Outside × τ) : ∃ way r s', c.Ending sink p s way r s' := by
  cases hp : p.startFault with
  | some e =>
    by_cases he : e.kind = .fileNotFound
    · by_cases hc : c.words = []
      · exact ⟨_, _, _, .nameless hp he hc⟩
      · obtain ⟨s', hs⟩ | ⟨j, f, s', hs⟩ := takes_or_refuses sink [e.message] s
        · exact ⟨_, _, _, .missing hp he hc hs⟩
        · exact ⟨_, _, _, .unheard hp he hc hs⟩
    · exact ⟨_, _, _, .unstarted hp he⟩
  | none =>
    obtain ⟨s', hs⟩ | ⟨j, f, s', hs⟩ := takes_or_refuses sink (linesOf p.stderr) s
    · cases ho : p.stdoutFault with
      | some text => exact ⟨_, _, _, .unread hp hs ho⟩
      | none => exact ⟨_, _, _, .finished hp hs ho⟩
    · cases hx : s'.1.polls.headD false with
      | true => exact ⟨_, _, _, .outlasted hp hs hx⟩
      | false =>
        by_cases hc : c.words = []
        · exact ⟨_, _, _, .abandoned hp hc hs hx⟩
        · exact ⟨_, _, _, .refused hp hc hs hx⟩

theorem Ending.way_eq (h : c.Ending sink p s way r s') (h' : c.Ending sink p s way' r' s'') : way = way' := by
  cases h <;> cases h' <;> grind [Takes.not_refuses, Refuses.unique, Refuses.state_unique]

theorem Takes.keeps {γ : Type} {f : Outside × τ → γ} (hk : ∀ line, (sink line).Keeps f) {lines : List String}
    (h : Takes sink lines s s') : f s' = f s := by
  have := keeps_deliver hk lines s
  rwa [h.deliver] at this

theorem Refuses.keeps {γ : Type} {f : Outside × τ → γ} (hk : ∀ line, (sink line).Keeps f)
    {lines : List String} {j : Nat} {e : Fault} (h : Refuses sink lines j s e s') : f s' = f s := by
  have := keeps_deliver hk lines s
  rwa [h.deliver] at this

theorem Ending.kills (hk : ∀ line, (sink line).Keeps fun s => s.1.kills) (h : c.Ending sink p s way r s') :
    s'.1.kills = s.1.kills + way.kills := by
  cases h with
  | missing hp he hc hs => exact hs.keeps hk
  | unheard hp he hc hs => exact hs.keeps hk
  | unstarted hp he => rfl
  | refused hp hc hs => rw [Outside.kills_log, if_pos rfl, Outside.kills_polled, hs.keeps hk, Way.kills]
  | outlasted hp hs => exact hs.keeps hk
  | unread hp hs ho => exact hs.keeps hk
  | finished hp hs ho => exact hs.keeps hk
  | nameless hp he hc => rfl
  | abandoned hp hc hs => exact hs.keeps hk

theorem Ending.named (h : c.Ending sink p s way r s')
    (hw : c.words = [] → p.startFault = some .emptyCommand) : way ≠ .nameless ∧ ∀ j, way ≠ .abandoned j := by
  cases h with
  | nameless hp he hc =>
    cases hp.symm.trans (hw hc)
    cases he
  | abandoned hp hc => cases hp.symm.trans (hw hc)
  | _ => exact ⟨nofun, nofun⟩

theorem exitCodeOf_not_mem {status : Int} (h : status < 0) : exitCodeOf status ∉ [0, 4, 10] := by
  have hcode : exitCodeOf status = 128 - status := if_pos h
  simp only [List.mem_cons, List.not_mem_nil, or_false, not_or]
  omega

end

/-- A run ends in exactly one way, whatever the tool and the sink do. The tool is killed just when the sink
raises a fault at one of its lines while the tool is running. What a run that finishes says of the end of the
tool is true. Nothing can be started from an empty command, and where that is so no run ends for want of a
name. -/
theorem run_ends_in_one_way {τ : Type} (c : Command) (sink : String → Action (Outside × τ) Unit) (w : Outside)
    (t : τ) :
    let p := w.runs.headD .quiet
    let final := (c.run sink).run (w, t)
    ∃ way, c.Ending sink p (c.begun w, t) way final.1 final.2 ∧
      (∀ way' r s', c.Ending sink p (c.begun w, t) way' r s' → way' = way ∧ final = (r, s')) ∧
      ((∀ line, (sink line).Keeps fun s => s.1.kills) → final.2.1.kills = w.kills + way.kills) ∧
      ((c.words = [] → p.startFault = some .emptyCommand) → way ≠ .nameless ∧ ∀ j, way ≠ .abandoned j) ∧
      ∀ r, final.1 = .ok r → p.startFault = none →
        (r.wasTerminated = true ↔ p.exitStatus = -15 ∨ p.exitStatus = 143) ∧
          (p.exitStatus < 0 → r.exitCode ∉ [0, 4, 10]) := by
  intro p final
  obtain ⟨way, r, s', h⟩ := exists_ending c sink p (c.begun w, t)
  have hrun {way' : Way} {r' : Except Fault Result} {s'' : Outside × τ}
      (h' : c.Ending sink p (c.begun w, t) way' r' s'') : final = (r', s'') :=
    (run_eq_follow c (w, t)).trans h'.run_follow
  rw [hrun h]
  refine ⟨way, h, ?_, ?_, h.named, ?_⟩
  · intro way' r' s'' h'
    exact ⟨h'.way_eq h, (hrun h).symm.trans (hrun h')⟩
  · intro hk
    rw [h.kills hk, begun, Outside.kills_log]
    rfl
  · rintro r rfl hp
    cases h with
    | missing hp' => cases hp.symm.trans hp'
    | finished =>
      refine ⟨?_, exitCodeOf_not_mem⟩
      rw [Result.wasTerminated, beq_iff_eq]
      exact exitCodeOf_eq_terminatedCode_iff p.exitStatus

/-- A tool that prints a line and exits is not killed when the sink raises a fault at the line. -/
theorem run_of_exited :
    let c : Command := ⟨["tesseract", "/f"], [], none⟩
    let deaf : String → Action (Outside × List String) Unit := fun _ => .fail (.raised .runtime "deaf")
    let w := { Outside.calm with runs := [⟨0, [], [97, 10], none, none⟩], polls := [true] }
    let final := (c.run deaf).run (w, [])
    final.1 = .error (.raised .runtime "deaf") ∧ final.2.1.calls = [(c.call [], false)] ∧
      final.2.1.kills = 0 := by
  decide

end Command
end Intake
