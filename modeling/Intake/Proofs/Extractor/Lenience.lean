import Intake.Proofs.Extractor.Frames

/-!
# Notes that may be refused

A lenient outside refuses notes with nothing but faults of writing to the log. There every line that a tool
prints is taken, so the tool ends as its run says, with its exit code.
-/
namespace Intake

/-- How a run of a tool ends: with its status, with 128 and the number of the signal that killed it, or
with 127 if there is no such tool. -/
inductive ToolRun.EndsWith (p : ToolRun) : Int → Prop
  | exited (hs : p.startFault = none) (ho : p.stdoutFault = none) (h : 0 ≤ p.exitStatus) :
      EndsWith p p.exitStatus
  | killed {n : Nat} (hs : p.startFault = none) (ho : p.stdoutFault = none) (hn : 0 < n)
      (h : p.exitStatus = -n) : EndsWith p (128 + n)
  | missing {e : Fault} (hs : p.startFault = some e) (he : e.kind = .fileNotFound) : EndsWith p 127

namespace ToolRun

theorem endsWith_quiet : quiet.EndsWith 0 := .exited rfl rfl (Int.le_refl 0)

/-- The lines that a tool hands on. One that does not exist leaves only word of that. -/
def printed (p : ToolRun) : List String :=
  match p.startFault with
  | some e => if e.kind = .fileNotFound then [e.message] else []
  | none => Command.linesOf p.stderr

/-- What a tool comes to if all its lines are taken. -/
def result (p : ToolRun) : Except Fault Command.Result :=
  match p.startFault with
  | some e => if e.kind = .fileNotFound then .ok ⟨Command.notFoundCode, ""⟩ else .error e
  | none =>
    match p.stdoutFault with
    | some text => .error (.raised .os text)
    | none => .ok ⟨Command.exitCodeOf p.exitStatus, String.ofList (Command.textOf p.stdout)⟩

theorem printed_quiet : quiet.printed = [] := by decide

/-- A tool comes to an end just when it comes to a result. -/
theorem endsWith_iff {p : ToolRun} {code : Int} :
    p.EndsWith code ↔ ∃ r, p.result = .ok r ∧ r.exitCode = code := by
  constructor
  · intro h
    cases h with
    | exited hs ho h =>
      refine ⟨_, by rw [result, hs, ho], ?_⟩
      exact if_neg (by omega)
    | @killed n hs ho hn h =>
      refine ⟨_, by rw [result, hs, ho], ?_⟩
      show Command.exitCodeOf p.exitStatus = 128 + (n : Int)
      rw [Command.exitCodeOf, if_pos (by omega)]
      omega
    | missing hs he => exact ⟨_, by rw [result, hs]; exact if_pos he, rfl⟩
  · rintro ⟨r, hr, rfl⟩
    unfold result at hr
    split at hr
    · rename_i e hs
      split at hr
      · rename_i he
        cases hr
        exact .missing hs he
      · cases hr
    · rename_i hs
      split at hr
      · cases hr
      · rename_i ho
        cases hr
        by_cases hz : 0 ≤ p.exitStatus
        · have hcode : Command.exitCodeOf p.exitStatus = p.exitStatus := if_neg (by omega)
          rw [hcode]
          exact .exited hs ho hz
        · have hcode : Command.exitCodeOf p.exitStatus = 128 + p.exitStatus.natAbs := by
            rw [Command.exitCodeOf, if_pos (by omega)]
            omega
          rw [hcode]
          exact .killed hs ho (by omega) (by omega)

theorem result_ok {p : ToolRun} {r : Command.Result} (h : p.result = .ok r) :
    r = ⟨Command.notFoundCode, ""⟩ ∨
      r = ⟨Command.exitCodeOf p.exitStatus, String.ofList (Command.textOf p.stdout)⟩ := by
  unfold result at h
  split at h
  · split at h
    · exact .inl (Except.ok.inj h).symm
    · cases h
  · split at h
    · cases h
    · exact .inr (Except.ok.inj h).symm

theorem result_eq_error_iff {p : ToolRun} {e : Fault} :
    p.result = .error e ↔ p.startFault = some e ∧ e.kind ≠ .fileNotFound ∨
      p.startFault = none ∧ ∃ text, p.stdoutFault = some text ∧ e = .raised .os text := by
  unfold result
  cases hs : p.startFault with
  | some f =>
    by_cases hf : f.kind = .fileNotFound
    · simp only [hf, if_true, reduceCtorEq, Option.some.injEq, false_and, or_false, false_iff]
      rintro ⟨rfl, he⟩
      exact he hf
    · simp only [hf, if_false, Except.error.injEq, Option.some.injEq, reduceCtorEq, false_and, or_false]
      exact ⟨fun h => ⟨h, h ▸ hf⟩, And.left⟩
  | none =>
    cases p.stdoutFault with
    | some text => simp [eq_comm]
    | none => simp

end ToolRun

namespace Outside

/-- The notifier refuses notes with nothing but faults of writing to the log. -/
def Lenient (w : Outside) : Prop := ∀ e, Reply.fails e ∈ w.notifier → e.kind = .storageWrite

theorem Lenient.of_notifier {w w' : Outside} (h : w.Lenient) (hn : w'.notifier ⊆ w.notifier) :
    w'.Lenient := fun e he => h e (hn he)

theorem Lenient.tail {w : Outside} (h : w.Lenient) (e : Entry) :
    ({ w with notifier := w.notifier.tail }.log e).Lenient := h.of_notifier (List.tail_sublist _).subset

theorem Lenient.kind_of_reply {w : Outside} (h : w.Lenient) {f : Fault}
    (hr : w.notifier.headD .done = .fails f) : f.kind = .storageWrite := by
  apply h
  cases hn : w.notifier with
  | nil => simp [hn] at hr
  | cons reply rest =>
    rw [hn, List.headD_cons] at hr
    simp [hr]

theorem Lenient.run_forward {w : Outside} (h : w.Lenient) {g : String → Action Outside Unit}
    {line : String} {n : Note} (hg : g line = Outside.sendNote n) :
    ∃ e, (e = .noted n ∨ e = .noteRefused n) ∧ (Transcript.forward (some g) line).run w =
      (.ok (), { w with notifier := w.notifier.tail }.log e) := by
  rw [Outside.run_forward hg]
  cases hr : w.notifier.headD .done with
  | done => exact ⟨_, .inl rfl, rfl⟩
  | silence => exact ⟨_, .inl rfl, rfl⟩
  | fails f => exact ⟨_, .inr rfl, by simp [h.kind_of_reply hr]⟩

theorem Lenient.forward {w : Outside} (h : w.Lenient) {send : Option (String → Action Outside Unit)}
    (hs : ∀ g ∈ send, ∀ line, ∃ n, g line = Outside.sendNote n) (line : String) :
    ∃ w', (Transcript.forward send line).run w = (.ok (), w') ∧ w'.Lenient := by
  cases send with
  | none => exact ⟨w, rfl, h⟩
  | some g =>
    obtain ⟨n, hn⟩ := hs g rfl line
    obtain ⟨e, -, hr⟩ := h.run_forward hn
    exact ⟨_, hr, h.tail e⟩

theorem Lenient.append {s : Outside × Transcript} (h : s.1.Lenient)
    {send : Option (String → Action Outside Unit)}
    (hs : ∀ g ∈ send, ∀ line, ∃ n, g line = Outside.sendNote n) (throttle : Float) (line : String) :
    ∃ s', (Transcript.append throttle send line).run s = (.ok (), s') ∧
      s'.2.lines = s.2.lines ++ [line] ∧ s'.1.Lenient := by
  obtain ⟨w, t⟩ := s
  let w₁ : Outside := { w with clock := (popKeeping 0.0 w.clock).2 }
  let now := (popKeeping 0.0 w.clock).1
  have hw : w₁.Lenient := h
  have hrun : (Transcript.append throttle send line).run (w, t) =
      (if Transcript.due throttle t.lastNote now then
        (do
          .second (.modify fun t => { t with lastNote := some now })
          .first (Transcript.forward send line) : Action (Outside × Transcript) Unit)
      else pure ()).run (w₁, { t with lines := t.lines ++ [line] }) := rfl
  rw [hrun]
  split
  · obtain ⟨w', hf, hl⟩ := hw.forward hs line
    refine ⟨(w', ⟨t.lines ++ [line], some now⟩), ?_, rfl, hl⟩
    simp only [Action.run_bind, Action.run_second, Action.run_modify, Action.run_first, hf]
  · exact ⟨_, rfl, rfl, hw⟩

theorem sends_noteSender (notifies : Bool) (name : String) (b : Blob) :
    ∀ g ∈ (if notifies then some (Extractor.noteSender name b) else none), ∀ line,
      ∃ n, g line = Outside.sendNote n := by
  intro g hg line
  split at hg
  · cases hg
    exact ⟨_, rfl⟩
  · cases hg

/-- What tools will do and in which environment, and which were started. -/
def tools (w : Outside) : List ToolRun × List (String × String) × List Call :=
  (w.runs, w.environment, w.started)

theorem tools_log (e : Entry) (w : Outside) :
    tools (w.log e) = (w.runs, w.environment, w.started ++ (match e with | .started c => [c] | _ => [])) := by
  rw [tools, started_log]
  rfl

theorem blind_tools : Blind tools where
  polls _ _ := rfl
  clock _ _ := rfl
  notifier _ _ := rfl
  noted w n := by rw [tools_log, List.append_nil, tools]
  noteRefused w n := by rw [tools_log, List.append_nil, tools]
  killed w := by rw [tools_log, List.append_nil, tools]

end Outside

namespace Command

theorem tools_run {τ : Type} {sink : String → Action (Outside × τ) Unit}
    (hk : ∀ line, (sink line).Keeps fun s => Outside.tools s.1) (c : Command) (s : Outside × τ) :
    Outside.tools ((c.run sink).run s).2.1 =
      (s.1.runs.tail, s.1.environment, s.1.started ++ [c.call s.1.environment]) := by
  have hb : Outside.tools (c.begun s.1) =
      (s.1.runs.tail, s.1.environment, s.1.started ++ [c.call s.1.environment]) := by
    rw [begun, Outside.tools_log]
    rfl
  rw [run_eq_follow]
  exact (keeps_follow Outside.blind_tools hk c _ _).trans hb

variable {send : Option (String → Action Outside Unit)} {s : Outside × Transcript}

theorem deliver_of_lenient (hs : ∀ g ∈ send, ∀ line, ∃ n, g line = Outside.sendNote n) (throttle : Float)
    (lines : List String) (h : s.1.Lenient) :
    ∃ s', (deliver (Transcript.append throttle send) lines).run s = (.ok (), s') ∧
      s'.2.lines = s.2.lines ++ lines ∧ s'.1.Lenient := by
  induction lines generalizing s with
  | nil => exact ⟨s, rfl, (List.append_nil _).symm, h⟩
  | cons line lines ih =>
    obtain ⟨s₁, ha, hl, h₁⟩ := h.append hs throttle line
    obtain ⟨s₂, hd, hl₂, h₂⟩ := ih h₁
    refine ⟨s₂, (Action.run_bind_of_ok ha).trans hd, ?_, h₂⟩
    rw [hl₂, hl, List.append_assoc, List.singleton_append]

theorem follow_of_lenient (hs : ∀ g ∈ send, ∀ line, ∃ n, g line = Outside.sendNote n) (throttle : Float)
    {c : Command} (hc : c.words ≠ []) (p : ToolRun) (h : s.1.Lenient) :
    ∃ s', (c.follow (Transcript.append throttle send) p).run s = (p.result, s') ∧
      s'.2.lines = s.2.lines ++ p.printed ∧ s'.1.Lenient := by
  unfold follow ToolRun.result ToolRun.printed
  cases p.startFault with
  | some e =>
    by_cases he : e.kind = .fileNotFound
    · obtain ⟨s', ha, hl, h'⟩ := h.append hs throttle e.message
      have hname : (c.nameTool : Action (Outside × Transcript) Unit) = pure () := by
        simp [nameTool, hc]
      simp only [he, if_true, hname, Action.run_bind, Action.run_pure, ha]
      exact ⟨s', rfl, hl, h'⟩
    · simp only [he, if_false, Action.run_fail]
      exact ⟨s, rfl, (List.append_nil _).symm, h⟩
  | none =>
    obtain ⟨s', hd, hl, h'⟩ := deliver_of_lenient hs throttle (linesOf p.stderr) h
    refine ⟨s', ?_, hl, h'⟩
    simp only [Action.run_bind, Action.run_onFault, hd]
    cases p.stdoutFault with
    | some text => rfl
    | none => rfl

end Command
end Intake
