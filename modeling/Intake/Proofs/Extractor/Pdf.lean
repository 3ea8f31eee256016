import Intake.Extractor.Pdf
import Intake.Proofs.Extractor.Frames
import Intake.Proofs.Extractor.Progress

/-!
# What reaches the object storage

For each language in turn a copy is made in a directory of its own, and what reaches the object storage are
the copies of the first languages. They are all there just when the extractor succeeds.
-/
namespace Intake

theorem Outside.run_putObject (key : String) (path : FilePath) (w : Outside) :
    (putObject key path).run w = (.ok (), { w with storage := w.storage.tail }.log (.stored key path)) ∨
      ∃ e, (putObject key path).run w = (.error e, { w with storage := w.storage.tail }) := by
  have hn : nextStorageReply.run w = (.ok (pop Reply.done w.storage).1, { w with storage := w.storage.tail }) := by
    rw [← pop_snd .done]
    rfl
  rw [putObject, Action.run_bind_of_ok hn]
  cases (pop Reply.done w.storage).1 with
  | done => exact .inl rfl
  | silence => exact .inl rfl
  | fails e => exact .inr ⟨e, rfl⟩

namespace Overlay.Job

variable {τ γ : Type} {f : Outside × τ → γ} {sink : String → Action (Outside × τ) Unit}

theorem keeps_steps (hk : ∀ c : Command, (c.run sink).Keeps f) (j : Job) (s : Step) (decided : Int) :
    (j.steps sink s decided).Keeps f := by
  -- The rank falls with every step, as it does in the definition of `steps`.
  induction hn : s.rank using Nat.strongRecOn generalizing s decided with
  | ind n ih =>
    rw [steps]
    split
    · exact .pure decided
    · rename_i h
      exact .bind (hk _) fun r => ih _ (hn ▸ Step.rank_next_lt h r.exitCode) _ _ rfl

theorem keeps_run (hk : ∀ c : Command, (c.run sink).Keeps f) (j : Job) : (j.run sink).Keeps f :=
  .bind (keeps_steps hk j .redo 0) fun _ => .pure _

theorem run_success {j : Job} {s s' : Outside × τ} {output : FilePath}
    (h : (j.run sink).run s = (.ok (.success output), s')) : output = j.output := by
  obtain ⟨code, s₁, -, h⟩ := Action.run_bind_eq_ok_iff.mp h
  have ho : outcomeOf code j.output = .success output := Except.ok.inj (Prod.mk.inj h).1
  unfold outcomeOf at ho
  split at ho
  · cases ho
    rfl
  · split at ho <;> cases ho

end Overlay.Job

namespace Extractor.Pdf

/-- What the object storage took, and how many temporary directories were opened. -/
def view (w : Outside) : List (String × FilePath) × Nat := (w.objects, w.scratchCount)

theorem view_log (e : Entry) (w : Outside) :
    view (w.log e) = (w.objects ++ (match e with | .stored k p => [(k, p)] | _ => []),
      w.scratchCount + match e with | .scratchOpened _ => 1 | _ => 0) := by
  rw [view, Outside.objects_log, Outside.scratchCount, Outside.journal_log, List.countP_append]
  cases e <;> rfl

theorem blind_view : Outside.Blind view where
  polls _ _ := rfl
  clock _ _ := rfl
  notifier _ _ := rfl
  noted w n := by rw [view_log, List.append_nil]; rfl
  noteRefused w n := by rw [view_log, List.append_nil]; rfl
  killed w := by rw [view_log, List.append_nil]; rfl

theorem view_begun (c : Command) (w : Outside) : view (c.begun w) = view w := by
  rw [Command.begun, view_log, List.append_nil]
  rfl

theorem keeps_sink (s : Setup) (b : Blob) (line : String) : (s.sink b line).Keeps fun s => view s.1 :=
  blind_view.append_noteSender s.notifies name b s.throttle line

theorem keeps_job (s : Setup) (b : Blob) (j : Overlay.Job) :
    (j.run (s.sink b)).Keeps fun s => view s.1 :=
  j.keeps_run fun c => c.keeps_run blind_view view_begun (keeps_sink s b)

/-- The copy in a language that is made in the temporary directory of a number. -/
def copy (s : Setup) (b : Blob) (document : FilePath) (p : Params) (n : Nat) (language : String) :
    String × FilePath :=
  (objectKey b.id language,
    (s.job document p language (.ofString (Outside.scratchName s.scratchRoot n))).output)

/-- The copies in some languages, made in temporary directories of numbers from `n` on. -/
def copies (s : Setup) (b : Blob) (document : FilePath) (p : Params) (n : Nat) (languages : List String) :
    List (String × FilePath) :=
  languages.mapIdx fun k language => copy s b document p (n + k) language

theorem copies_cons (s : Setup) (b : Blob) (document : FilePath) (p : Params) (n : Nat)
    (language : String) (rest : List String) :
    copies s b document p n (language :: rest) =
      copy s b document p n language :: copies s b document p (n + 1) rest := by
  rw [copies, List.mapIdx_cons, copies]
  simp only [Nat.add_zero, Nat.add_assoc, Nat.add_comm 1]

theorem putObject_run (key : String) (path : FilePath) (w : Outside) :
    ((Outside.putObject key path).run w).1 = .ok () ∧
        view ((Outside.putObject key path).run w).2 = (w.objects ++ [(key, path)], w.scratchCount) ∨
      (∃ e, ((Outside.putObject key path).run w).1 = .error e) ∧
        view ((Outside.putObject key path).run w).2 = view w := by
  obtain h | ⟨e, h⟩ := Outside.run_putObject key path w
  · rw [h, view_log]
    exact .inl ⟨rfl, rfl⟩
  · rw [h]
    exact .inr ⟨⟨e, rfl⟩, rfl⟩

theorem run_withScratch {τ α : Type} (root : FilePath) (use : FilePath → Action (Outside × τ) α)
    (w : Outside) (t : τ) :
    let name := Outside.scratchName root w.scratchCount
    let final := (use (.ofString name)).run (w.log (.scratchOpened name), t)
    (Outside.withScratch root use).run (w, t) =
      (final.1, final.2.1.log (.scratchCleaned name), final.2.2) := rfl

def workIn (s : Setup) (b : Blob) (document : FilePath) (p : Params) (language : String)
    (scratch : FilePath) : Action (Outside × Transcript) (Outcome Unit) := do
  match ← (s.job document p language scratch).run (s.sink b) with
  | .success output =>
    .first (Outside.putObject (objectKey b.id language) output)
    return .success ()
  | .interrupted reason => return .interrupted reason
  | .failed failure => return .failed failure

theorem language_eq (s : Setup) (b : Blob) (document : FilePath) (p : Params) (language : String) :
    s.language b document p language =
      Outside.withScratch s.scratchRoot (workIn s b document p language) := rfl

theorem workIn_run (s : Setup) (b : Blob) (document : FilePath) (p : Params) (language : String)
    (scratch : FilePath) (w : Outside) (t : Transcript) :
    let thing := (objectKey b.id language, (s.job document p language scratch).output)
    let final := (workIn s b document p language scratch).run (w, t)
    final.1 = .ok (.success ()) ∧ view final.2.1 = (w.objects ++ [thing], w.scratchCount) ∨
      (¬∃ u, final.1 = .ok (.success u)) ∧ view final.2.1 = view w := by
  intro thing final
  have hk : view (((s.job document p language scratch).run (s.sink b)).run (w, t)).2.1 = view w :=
    keeps_job s b (s.job document p language scratch) (w, t)
  subst final
  rw [workIn, Action.run_bind]
  cases hr : ((s.job document p language scratch).run (s.sink b)).run (w, t) with
  | mk o st =>
    obtain ⟨w₁, t₁⟩ := st
    rw [hr] at hk
    rcases o with f | output | reason | failure
    · exact .inr ⟨nofun, hk⟩
    · obtain rfl := Overlay.Job.run_success hr
      have hp := putObject_run thing.1 thing.2 w₁
      dsimp only
      rw [Action.run_bind, Action.run_first]
      cases hx : (Outside.putObject thing.1 thing.2).run w₁ with
      | mk q w₂ =>
        rw [hx] at hp
        obtain ⟨rfl, hw⟩ | ⟨⟨e, rfl⟩, hw⟩ := hp
        · obtain ⟨ho, hc⟩ := Prod.mk.inj hk
          rw [ho, hc] at hw
          exact .inl ⟨rfl, hw⟩
        · exact .inr ⟨nofun, hw.trans hk⟩
    · exact .inr ⟨nofun, hk⟩
    · exact .inr ⟨nofun, hk⟩

/-- Each language has a temporary directory opened for it, whether its copy is stored or not. -/
theorem language_run (s : Setup) (b : Blob) (document : FilePath) (p : Params) (language : String)
    (w : Outside) (t : Transcript) :
    let final := (s.language b document p language).run (w, t)
    final.1 = .ok (.success ()) ∧ view final.2.1 =
        (w.objects ++ [copy s b document p w.scratchCount language], w.scratchCount + 1) ∨
      (¬∃ u, final.1 = .ok (.success u)) ∧ final.2.1.objects = w.objects := by
  let name := Outside.scratchName s.scratchRoot w.scratchCount
  have hopen : view (w.log (.scratchOpened name)) = (w.objects, w.scratchCount + 1) := by
    rw [view_log, List.append_nil]
  have hclean (w' : Outside) : view (w'.log (.scratchCleaned name)) = view w' := by
    rw [view_log, List.append_nil]
    rfl
  obtain ⟨ho, hc⟩ := Prod.mk.inj hopen
  rw [language_eq, run_withScratch]
  obtain ⟨hr, hv⟩ | ⟨hr, hv⟩ := workIn_run s b document p language (.ofString name)
    (w.log (.scratchOpened name)) t
  · rw [ho, hc] at hv
    exact .inl ⟨hr, (hclean _).trans hv⟩
  · exact .inr ⟨hr, congrArg Prod.fst ((hclean _).trans (hv.trans hopen))⟩

theorem languages_delivered (s : Setup) (b : Blob) (document : FilePath) (p : Params)
    (languages : List String) (st : Outside × Transcript) :
    ∃ n, Progress st.1.objects ((s.languages b document p languages).run st).2.1.objects
      (copies s b document p st.1.scratchCount languages)
      ((s.languages b document p languages).run st).1 n := by
  induction languages generalizing st with
  | nil => exact ⟨0, .done _ _⟩
  | cons language rest ih =>
    have hl := language_run s b document p language st.1 st.2
    rw [Setup.languages, Action.run_bind, copies_cons]
    cases hr : (s.language b document p language).run st with
    | mk o st₁ =>
      rw [hr] at hl
      obtain ⟨rfl, hv⟩ | ⟨hn, hv⟩ := hl
      · obtain ⟨ho, hc⟩ := Prod.mk.inj hv
        obtain ⟨n, hn⟩ := ih st₁
        rw [ho, hc] at hn
        exact ⟨n + 1, hn.next⟩
      · rcases o with f | u | reason | failure
        · exact ⟨0, .stop hv nofun⟩
        · exact absurd ⟨u, rfl⟩ hn
        · exact ⟨0, .stop hv nofun⟩
        · exact ⟨0, .stop hv nofun⟩

theorem run_extract {p : Params} (hl : p.languages ≠ []) (s : Setup) (b : Blob) (document : FilePath)
    (w : Outside) :
    let final := (s.languages b document p p.languages).run (w.log (.directoryMade s.scratchRoot), .empty)
    (s.extract b document p).run w = (final.1, final.2.1) := by
  simp only [Setup.extract, List.isEmpty_iff, hl]
  rfl

/-- What the extractor delivers of the languages it is asked for. Asked for none, it does not succeed. -/
theorem extract_delivered (s : Setup) (b : Blob) (document : FilePath) (p : Params) (w : Outside) :
    p.languages = [] ∧ (¬∃ v, ((s.extract b document p).run w).1 = .ok (.success v)) ∨
      p.languages ≠ [] ∧ ∃ n, Progress w.objects ((s.extract b document p).run w).2.objects
        (copies s b document p w.scratchCount p.languages) ((s.extract b document p).run w).1 n := by
  unfold Setup.extract
  split
  · rename_i h
    exact .inl ⟨List.isEmpty_iff.mp h, nofun⟩
  · rename_i h
    refine .inr ⟨fun hn => h (List.isEmpty_iff.mpr hn), ?_⟩
    have hw : view (w.log (.directoryMade s.scratchRoot)) = view w := by
      rw [view_log, List.append_nil]
      rfl
    obtain ⟨ho, hc⟩ := Prod.mk.inj hw
    rw [← ho, ← hc]
    exact languages_delivered s b document p p.languages (w.log (.directoryMade s.scratchRoot), .empty)

end Extractor.Pdf
end Intake
