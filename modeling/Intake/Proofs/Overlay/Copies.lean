import Intake.Proofs.Extractor.Pdf
import Intake.Proofs.FilePath

/-!
# Where copies go

A tool that works on a document writes to a path other than the one it reads. All that is written lies
directly in the directory in which the work is done, and the document that was given is left alone.
-/
namespace Intake

theorem Outside.blind_started : Outside.Blind Outside.started where
  polls _ _ := rfl
  clock _ _ := rfl
  notifier _ _ := rfl
  noted w n := by simp [Outside.started_log]
  noteRefused w n := by simp [Outside.started_log]
  killed w := by simp [Outside.started_log]

theorem Command.started_run {τ : Type} {sink : String → Action (Outside × τ) Unit}
    (hk : ∀ line, (sink line).Keeps fun s => s.1.started) (c : Command) (s : Outside × τ) :
    ((c.run sink).run s).2.1.started = s.1.started ++ [c.call s.1.environment] := by
  have hb : (c.begun s.1).started = s.1.started ++ [c.call s.1.environment] := by
    rw [begun, Outside.started_log]
    rfl
  have hf := keeps_follow Outside.blind_started hk c (s.1.runs.headD .quiet) (c.begun s.1, s.2)
  rw [run_eq_follow]
  exact hf.trans hb

namespace Overlay.Job

/-- A command on the input of a job makes a copy. The last two words are the path that it reads and the path
that it writes. -/
structure Makes (j : Job) (words : List String) (copy : FilePath) : Prop where
  paths : ∃ front source target, words = front ++ [source, target] ∧ .ofString target = copy ∧
    copy ≠ .ofString source
  input : copy ≠ j.input.absolute
  place : copy.DirectlyIn j.scratch.absolute

/-- A command recognises text. -/
def Recognises (j : Job) (words : List String) : Prop :=
  ∃ flag ∈ ["--redo-ocr", "--skip-text"], [j.tools.recogniser, flag] <+: words

/-- A command removes a protection. -/
def Decrypts (j : Job) (words : List String) : Prop := [j.tools.decrypter, "--decrypt"] <+: words

variable {τ : Type} {sink : String → Action (Outside × τ) Unit}

theorem name_output (j : Job) : j.output.absolute.name = j.input.name ++ ".ocr.pdf" := by
  rw [FilePath.name_absolute]
  apply FilePath.name_child
  exact j.input.isComponent_name_append (by decide) (by decide)

theorem name_decrypted (j : Job) : j.decrypted.absolute.name = j.input.name ++ ".decrypt.pdf" := by
  rw [FilePath.name_absolute]
  apply FilePath.name_child
  exact j.input.isComponent_name_append (by decide) (by decide)

theorem output_directlyIn (j : Job) : j.output.DirectlyIn j.scratch := by
  apply FilePath.child_directlyIn
  exact j.input.isComponent_name_append (by decide) (by decide)

theorem decrypted_directlyIn (j : Job) : j.decrypted.DirectlyIn j.scratch := by
  apply FilePath.child_directlyIn
  exact j.input.isComponent_name_append (by decide) (by decide)

theorem output_ne_decrypted (j : Job) : j.output.absolute ≠ j.decrypted.absolute := by
  intro h
  have hn := congrArg FilePath.name h
  rw [name_output, name_decrypted, String.append_right_inj] at hn
  exact absurd hn (by decide)

theorem ne_input {j : Job} {copy : FilePath} {ending : String} (h : copy.name = j.input.name ++ ending)
    (he : 0 < ending.length) : copy ≠ j.input.absolute := by
  rintro rfl
  rw [FilePath.name_absolute] at h
  have hl := congrArg String.length h
  rw [String.length_append] at hl
  omega

theorem output_ne_input (j : Job) : j.output.absolute ≠ j.input.absolute := ne_input j.name_output (by decide)

theorem decrypted_ne_input (j : Job) : j.decrypted.absolute ≠ j.input.absolute :=
  ne_input j.name_decrypted (by decide)

theorem recognition_makes (j : Job) (flag : String) {source : FilePath}
    (h : j.output.absolute ≠ source.absolute) :
    j.Makes (j.recognition flag source).words j.output.absolute where
  paths := by
    refine ⟨[j.tools.recogniser, flag, "-l", j.language] ++ j.resolution, _, _, rfl, ?_, ?_⟩
    · exact FilePath.ofString_text _
    · rwa [FilePath.ofString_text]
  input := j.output_ne_input
  place := j.output_directlyIn.absolute

theorem decryption_makes (j : Job) : j.Makes j.decryption.words j.decrypted.absolute where
  paths := by
    refine ⟨[j.tools.decrypter, "--decrypt"], _, _, rfl, ?_, ?_⟩
    · exact FilePath.ofString_text _
    · rw [FilePath.ofString_text]
      exact j.decrypted_ne_input
  input := j.decrypted_ne_input
  place := j.decrypted_directlyIn.absolute

theorem recognition_recognises (j : Job) {flag : String} (hf : flag ∈ ["--redo-ocr", "--skip-text"])
    (source : FilePath) : j.Recognises (j.recognition flag source).words :=
  ⟨flag, hf, ["-l", j.language] ++ j.resolution ++ [source.absolute.text, j.output.absolute.text],
    by simp [recognition]⟩

/-- Every step makes the copy that goes with its tool. -/
theorem command_makes (j : Job) {s : Step} (h : s ≠ .done) :
    j.Recognises (j.command s).words ∧ j.Makes (j.command s).words j.output.absolute ∨
      j.Decrypts (j.command s).words ∧ j.Makes (j.command s).words j.decrypted.absolute := by
  cases s with
  | redo => exact .inl ⟨j.recognition_recognises (by simp) _, j.recognition_makes _ j.output_ne_input⟩
  | skipText => exact .inl ⟨j.recognition_recognises (by simp) _, j.recognition_makes _ j.output_ne_input⟩
  | decrypt => exact .inr ⟨⟨_, rfl⟩, j.decryption_makes⟩
  | redoDecrypted =>
    exact .inl ⟨j.recognition_recognises (by simp) _, j.recognition_makes _ j.output_ne_decrypted⟩
  | done => exact absurd rfl h

/-- From any step on, the processes that are started are those of steps. -/
theorem steps_start (hk : ∀ line, (sink line).Keeps fun s => s.1.started) (j : Job) (s : Step) (decided : Int)
    (st : Outside × τ) :
    ∃ calls, ((j.steps sink s decided).run st).2.1.started = st.1.started ++ calls ∧
      ∀ c ∈ calls, ∃ s : Step, s ≠ .done ∧ c.words = (j.command s).words := by
  -- The rank falls with every step, as it does in the definition of `steps`.
  induction hn : s.rank using Nat.strongRecOn generalizing s decided st with
  | ind n ih =>
    rw [steps]
    split
    · exact ⟨[], by simp, by simp⟩
    · rename_i h
      have hs := Command.started_run hk (j.command s) st
      rw [Action.run_bind]
      cases hr : ((j.command s).run sink).run st with
      | mk r st₁ =>
        rw [hr] at hs
        cases r with
        | error e =>
          refine ⟨_, hs, ?_⟩
          simp only [List.mem_singleton, forall_eq]
          exact ⟨s, h, rfl⟩
        | ok r =>
          obtain ⟨calls, hcalls, hall⟩ :=
            ih _ (hn ▸ Step.rank_next_lt h r.exitCode) _ (s.deciding r.exitCode decided) st₁ rfl
          refine ⟨(j.command s).call st.1.environment :: calls, ?_, ?_⟩
          · rw [← List.singleton_append, ← List.append_assoc, ← hs]
            exact hcalls
          · simp only [List.forall_mem_cons]
            exact ⟨⟨s, h, rfl⟩, hall⟩

/-- A job never writes to a path that it reads, whatever its tools do and however it ends. It makes at most two
different copies, both directly in its directory, and a success tells the path of the one with the text. -/
theorem run_spares_input (hk : ∀ line, (sink line).Keeps fun s => s.1.started) (j : Job) (st : Outside × τ) :
    let final := (j.run sink).run st
    ∃ calls copy opened, final.2.1.started = st.1.started ++ calls ∧ copy ≠ opened ∧
      (∀ c ∈ calls, j.Recognises c.words ∧ j.Makes c.words copy ∨ j.Decrypts c.words ∧ j.Makes c.words opened) ∧
      ∀ output, final.1 = .ok (.success output) → output.absolute = copy := by
  intro final
  obtain ⟨calls, hcalls, hall⟩ := steps_start hk j .redo 0 st
  have hstarted : final.2.1.started = ((j.steps sink .redo 0).run st).2.1.started := by
    simp only [final, run, Action.run_bind]
    rcases (j.steps sink .redo 0).run st with ⟨_ | _, _⟩ <;> rfl
  refine ⟨calls, j.output.absolute, j.decrypted.absolute, hstarted.trans hcalls, j.output_ne_decrypted, ?_, ?_⟩
  · intro c hc
    obtain ⟨s, hs, hw⟩ := hall c hc
    rw [hw]
    exact j.command_makes hs
  · intro output ho
    have hrun : (j.run sink).run st = (.ok (.success output), final.2) := by rw [← ho]
    rw [run_success hrun]

/-- An encrypted document in the directory of the work, named like a copy. -/
theorem run_spares_input_of_locked :
    let j : Job := ⟨.standard, "eng", .ofString "/s/f.ocr.pdf", .ofString "s", none⟩
    let sink := Transcript.append 5.0 (some fun line => Outside.sendNote ⟨none, line⟩)
    let w : Outside := { Outside.calm with
      runs := [⟨8, [], [120, 10], none, none⟩, ⟨0, [], [], none, none⟩, ⟨4, [], [], none, none⟩] }
    let final := (j.run sink).run (w, .empty)
    (∀ line, (sink line).Keeps fun s => s.1.started) ∧
      final.1 = .ok (.success (.ofString "s/f.ocr.pdf.ocr.pdf")) ∧ final.2.1.started.length = 3 ∧
      ∃ copy opened, copy ≠ opened ∧ copy = .ofString "/s/f.ocr.pdf.ocr.pdf" ∧
        ∀ c ∈ final.2.1.started,
          j.Recognises c.words ∧ j.Makes c.words copy ∨ j.Decrypts c.words ∧ j.Makes c.words opened := by
  intro j sink w final
  have hk : ∀ line, (sink line).Keeps fun s => s.1.started := by
    apply Outside.blind_started.append
    rintro g ⟨⟩ line
    exact Outside.blind_started.sendNote _
  have hr : final.1 = .ok (.success (.ofString "s/f.ocr.pdf.ocr.pdf")) := by decide +kernel
  have hl : final.2.1.started.length = 3 := by decide +kernel
  obtain ⟨calls, copy, opened, hcalls, hne, hall, ho⟩ := run_spares_input hk j (w, .empty)
  have hstarted : final.2.1.started = calls := hcalls
  have hcopy : copy = .ofString "/s/f.ocr.pdf.ocr.pdf" := (ho _ hr).symm.trans (by decide +kernel)
  rw [← hstarted] at hall
  exact ⟨hk, hr, hl, copy, opened, hne, hcopy, hall⟩

end Overlay.Job
end Intake
