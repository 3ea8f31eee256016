import Intake.Proofs.Extractor.Image
import Intake.Proofs.Extractor.Lenience
import Intake.Proofs.Extractor.Pdf

/-!
# Journals told over

A journal can be told over with its signs of life left out or changed. Work on an outside and work on one
whose journal is told over go side by side, as long as they do so where signs of life are passed on.
-/
namespace Intake

/-- Two actions go side by side from a state and its image: they end in the same way, and the state in which
the second ends is the image of that in which the first does. -/
def Action.Mirrors {σ τ α : Type} (f : σ → τ) (P : σ → Prop) (m : Action σ α) (m' : Action τ α) : Prop :=
  ∀ s, P s → P (m.run s).2 ∧ m'.run (f s) = ((m.run s).1, f (m.run s).2)

namespace Action.Mirrors

variable {σ τ γ α β : Type} {f : σ → τ} {P : σ → Prop}

theorem pure (a : α) : Mirrors f P (Pure.pure a) (Pure.pure a) := fun _ hs => ⟨hs, rfl⟩

theorem fail (e : Fault) : Mirrors f P (Action.fail e : Action σ α) (Action.fail e) := fun _ hs => ⟨hs, rfl⟩

theorem bind {m : Action σ α} {m' : Action τ α} {k : α → Action σ β} {k' : α → Action τ β}
    (hm : Mirrors f P m m') (hk : ∀ a, Mirrors f P (k a) (k' a)) : Mirrors f P (m >>= k) (m' >>= k') := by
  intro s hs
  obtain ⟨hp, hr⟩ := hm s hs
  rw [run_bind, run_bind, hr]
  cases h : m.run s with
  | mk r s₁ =>
    rw [h] at hp
    cases r with
    | ok a => exact hk a s₁ hp
    | error e => exact ⟨hp, rfl⟩

theorem onFault {m : Action σ α} {m' : Action τ α} {k : Fault → Action σ α} {k' : Fault → Action τ α}
    (hm : Mirrors f P m m') (hk : ∀ e, Mirrors f P (k e) (k' e)) :
    Mirrors f P (m.onFault k) (m'.onFault k') := by
  intro s hs
  obtain ⟨hp, hr⟩ := hm s hs
  rw [run_onFault, run_onFault, hr]
  cases h : m.run s with
  | mk r s₁ =>
    rw [h] at hp
    cases r with
    | ok a => exact ⟨hp, rfl⟩
    | error e => exact hk e s₁ hp

theorem take {g : σ → α × σ} {g' : τ → α × τ} (hP : ∀ s, P s → P (g s).2)
    (hg : ∀ s, g' (f s) = ((g s).1, f (g s).2)) : Mirrors f P (.take g) (.take g') := by
  intro s hs
  refine ⟨hP s hs, ?_⟩
  rw [run_take, hg]
  rfl

theorem modify {g : σ → σ} {g' : τ → τ} (hP : ∀ s, P s → P (g s)) (hg : ∀ s, f (g s) = g' (f s)) :
    Mirrors f P (.modify g) (.modify g') := by
  intro s hs
  refine ⟨hP s hs, ?_⟩
  rw [run_modify, run_modify, hg]

theorem first {m : Action σ α} {m' : Action τ α} (hm : Mirrors f P m m') :
    Mirrors (fun s : σ × γ => (f s.1, s.2)) (fun s => P s.1) (.first m) (.first m') := by
  intro s hs
  obtain ⟨hp, hr⟩ := hm s.1 hs
  refine ⟨hp, ?_⟩
  rw [run_first, hr]
  rfl

theorem beside_first (m : Action γ α) :
    Mirrors (fun s : σ × γ => (f s.1, s.2)) (fun s => P s.1) (.second m) (.second m) :=
  fun _ hs => ⟨hs, rfl⟩

theorem second {m : Action σ α} {m' : Action τ α} (hm : Mirrors f P m m') :
    Mirrors (fun s : γ × σ => (s.1, f s.2)) (fun s => P s.2) (.second m) (.second m') := by
  intro s hs
  obtain ⟨hp, hr⟩ := hm s.2 hs
  refine ⟨hp, ?_⟩
  rw [run_second, hr]
  rfl

theorem beside_second (m : Action γ α) :
    Mirrors (fun s : γ × σ => (s.1, f s.2)) (fun s => P s.2) (.first m) (.first m) :=
  fun _ hs => ⟨hs, rfl⟩

theorem lend {m : Action (σ × γ) α} {m' : Action (τ × γ) α} (t : γ)
    (hm : Mirrors (fun s : σ × γ => (f s.1, s.2)) (fun s => P s.1) m m') :
    Mirrors f P (.lend t m) (.lend t m') := by
  intro s hs
  obtain ⟨hp, hr⟩ := hm (s, t) hs
  refine ⟨hp, ?_⟩
  rw [run_lend, hr]
  rfl

end Action.Mirrors

def Entry.isNote : Entry → Bool
  | .noted _ | .noteRefused _ => true
  | _ => false

theorem Entry.forall_of_isNote {P : Entry → Prop} (hn : ∀ n, P (.noted n)) (hr : ∀ n, P (.noteRefused n)) :
    ∀ e, e.isNote = true → P e := by
  intro e he
  cases e <;> first | exact hn _ | exact hr _ | cases he

/-- A way to tell entries over that leaves all but the signs of life as they are. -/
structure Retells (tell : Entry → List Entry) : Prop where
  others : ∀ e, e.isNote = false → tell e = [e]
  notes : ∀ e, e.isNote = true → ∀ d ∈ tell e, d.isNote = true

/-- Signs of life left out. -/
def Entry.unnoted (e : Entry) : List Entry := if e.isNote then [] else [e]

/-- Signs of life told as if none had been refused. -/
def Entry.heard : Entry → List Entry
  | .noteRefused n => [.noted n]
  | e => [e]

theorem retells_unnoted : Retells Entry.unnoted where
  others e he := by simp [Entry.unnoted, he]
  notes e he := by simp [Entry.unnoted, he]

theorem retells_heard : Retells Entry.heard where
  others e he := by cases e <;> first | rfl | cases he
  notes := Entry.forall_of_isNote (fun _ => List.forall_mem_singleton.mpr rfl)
    (fun _ => List.forall_mem_singleton.mpr rfl)

namespace Outside

/-- An outside with its journal told over and a notifier that takes everything. -/
def retold (tell : Entry → List Entry) (w : Outside) : Outside :=
  { w with notifier := [], journal := w.journal.flatMap tell }

/-- Signs of life are not passed on, or they are refused only with faults of writing to the log. -/
def Tolerates (notifies : Bool) (w : Outside) : Prop := notifies = true → w.Lenient

variable {tell : Entry → List Entry} {notifies : Bool}

theorem retold_log (ht : Retells tell) {e : Entry} (he : e.isNote = false) (w : Outside) :
    (w.log e).retold tell = (w.retold tell).log e := by
  simp only [retold, log, List.flatMap_append, List.flatMap_singleton, ht.others e he]

/-- The journal without its signs of life. -/
def plain (w : Outside) : List Entry := w.journal.filter fun e => !e.isNote

theorem plain_retold (ht : Retells tell) (w : Outside) : (w.retold tell).plain = w.plain := by
  show (w.journal.flatMap tell).filter _ = w.journal.filter _
  induction w.journal with
  | nil => rfl
  | cons e es ih =>
    rw [List.flatMap_cons, List.filter_append, ih]
    cases hn : e.isNote with
    | false =>
      rw [ht.others e hn, List.filter_cons_of_pos (by simp [hn]), List.filter_cons_of_pos (by simp [hn])]
      rfl
    | true =>
      have hnone : (tell e).filter (fun e => !e.isNote) = [] := by
        rw [List.filter_eq_nil_iff]
        intro d hd
        simp [ht.notes e hn d hd]
      rw [hnone, List.filter_cons_of_neg (by simp [hn])]
      rfl

theorem scratchCount_retold (ht : Retells tell) (w : Outside) :
    (w.retold tell).scratchCount = w.scratchCount := by
  have hc (w : Outside) : ({ w with journal := w.plain } : Outside).scratchCount = w.scratchCount := by
    rw [scratchCount, plain, List.countP_filter]
    apply List.countP_congr
    intro e _
    cases e <;> simp [Entry.isNote]
  rw [← hc, plain_retold ht, ← hc w]
  rfl

/-- Two actions on an outside go side by side with its journal told over. -/
abbrev Mirrors {α : Type} (tell : Entry → List Entry) (notifies : Bool) (m m' : Action Outside α) : Prop :=
  Action.Mirrors (retold tell) (Tolerates notifies) m m'

/-- The same for actions that have a second part of the state to themselves. -/
abbrev MirrorsWith {τ α : Type} (tell : Entry → List Entry) (notifies : Bool)
    (m m' : Action (Outside × τ) α) : Prop :=
  Action.Mirrors (fun s => (s.1.retold tell, s.2)) (fun s => s.1.Tolerates notifies) m m'

theorem mirrors_log (ht : Retells tell) {e : Entry} (he : e.isNote = false) :
    Mirrors tell notifies (.modify (log e)) (.modify (log e)) :=
  .modify (fun _ hw => hw) (retold_log ht he)

theorem mirrors_readClock : Mirrors tell notifies readClock readClock :=
  .take (fun _ hw => hw) fun _ => rfl

theorem mirrors_addDocument (ht : Retells tell) (d : Document) :
    Mirrors tell notifies (addDocument d) (addDocument d) := by
  have hn : Mirrors tell notifies nextIndexReply nextIndexReply := .take (fun _ hw => hw) fun _ => rfl
  refine .bind hn fun reply => ?_
  cases reply with
  | done => exact .bind (mirrors_log ht rfl) fun _ => .pure true
  | silence => exact .pure false
  | fails e => exact .fail e

theorem mirrors_putObject (ht : Retells tell) (key : String) (path : FilePath) :
    Mirrors tell notifies (putObject key path) (putObject key path) := by
  have hn : Mirrors tell notifies nextStorageReply nextStorageReply := .take (fun _ hw => hw) fun _ => rfl
  refine .bind hn fun reply => ?_
  cases reply with
  | done => exact mirrors_log ht rfl
  | silence => exact mirrors_log ht rfl
  | fails e => exact .fail e

theorem mirrors_withScratch (ht : Retells tell) {τ α : Type} (root : FilePath)
    {use use' : FilePath → Action (Outside × τ) α}
    (hu : ∀ scratch, MirrorsWith tell notifies (use scratch) (use' scratch)) :
    MirrorsWith tell notifies (withScratch root use) (withScratch root use') := by
  intro s hs
  obtain ⟨w, t⟩ := s
  obtain ⟨hp, hr⟩ := hu (.ofString (scratchName root w.scratchCount))
    (w.log (.scratchOpened (scratchName root w.scratchCount)), t) hs
  refine ⟨hp, ?_⟩
  rw [Extractor.Pdf.run_withScratch, Extractor.Pdf.run_withScratch, scratchCount_retold ht,
    ← retold_log ht rfl, hr, ← retold_log ht rfl]

theorem mirrors_append {send send' : Option (String → Action Outside Unit)}
    (hf : ∀ line, Mirrors tell notifies (Transcript.forward send line) (Transcript.forward send' line))
    (throttle : Float) (line : String) :
    MirrorsWith tell notifies (Transcript.append throttle send line)
      (Transcript.append throttle send' line) := by
  refine .bind (.beside_first _) fun _ => .bind (.first mirrors_readClock) fun now =>
    .bind (.beside_first _) fun t => ?_
  split
  · exact .bind (.beside_first _) fun _ => .first (hf line)
  · exact .pure ()

end Outside

open Outside

variable {tell : Entry → List Entry} {notifies : Bool}

namespace Command

variable {τ : Type} {sink sink' : String → Action (Outside × τ) Unit}

theorem mirrors_deliver (hs : ∀ line, MirrorsWith tell notifies (sink line) (sink' line))
    (lines : List String) : MirrorsWith tell notifies (deliver sink lines) (deliver sink' lines) := by
  induction lines with
  | nil => exact .pure ()
  | cons line lines ih => exact .bind (hs line) fun _ => ih

theorem mirrors_nameTool (c : Command) :
    MirrorsWith (τ := τ) tell notifies c.nameTool c.nameTool := by
  unfold nameTool
  split
  · exact .fail _
  · exact .pure ()

theorem mirrors_stop (ht : Retells tell) (c : Command) :
    MirrorsWith (τ := τ) tell notifies c.stop c.stop := by
  have hpoll : Mirrors tell notifies nextPoll nextPoll := .take (fun _ hw => hw) fun _ => rfl
  refine .bind (.first hpoll) fun exited => ?_
  split
  · exact .pure ()
  · exact .bind (mirrors_nameTool c) fun _ => .first (mirrors_log ht rfl)

theorem mirrors_follow (ht : Retells tell) (hs : ∀ line, MirrorsWith tell notifies (sink line) (sink' line))
    (c : Command) (p : ToolRun) : MirrorsWith tell notifies (c.follow sink p) (c.follow sink' p) := by
  unfold follow
  split
  · split
    · exact .bind (mirrors_nameTool c) fun _ => .bind (hs _) fun _ => .pure _
    · exact .fail _
  · refine .bind (.onFault (mirrors_deliver hs _) fun e => ?_) fun _ => ?_
    · exact .bind (mirrors_stop ht c) fun _ => .fail e
    · split
      · exact .fail _
      · exact .pure _

theorem mirrors_run (ht : Retells tell) (hs : ∀ line, MirrorsWith tell notifies (sink line) (sink' line))
    (c : Command) : MirrorsWith tell notifies (c.run sink) (c.run sink') := by
  intro s hw
  have hf := mirrors_follow ht hs c (s.1.runs.headD .quiet) (c.begun s.1, s.2) hw
  have hb : c.begun (s.1.retold tell) = (c.begun s.1).retold tell := by
    rw [begun, begun, retold_log ht rfl]
    rfl
  rw [run_eq_follow, run_eq_follow, hb]
  exact hf

end Command

namespace Overlay.Job

variable {τ : Type} {sink sink' : String → Action (Outside × τ) Unit}

theorem mirrors_steps (ht : Retells tell) (hs : ∀ line, MirrorsWith tell notifies (sink line) (sink' line))
    (j : Job) (s : Step) (decided : Int) :
    MirrorsWith tell notifies (j.steps sink s decided) (j.steps sink' s decided) := by
  induction hn : s.rank using Nat.strongRecOn generalizing s decided with
  | ind n ih =>
    rw [steps, steps]
    split
    · exact .pure decided
    · rename_i h
      exact .bind (Command.mirrors_run ht hs _) fun r => ih _ (hn ▸ Step.rank_next_lt h r.exitCode) _ _ rfl

theorem mirrors_run (ht : Retells tell) (hs : ∀ line, MirrorsWith tell notifies (sink line) (sink' line))
    (j : Job) : MirrorsWith tell notifies (j.run sink) (j.run sink') :=
  .bind (mirrors_steps ht hs j .redo 0) fun _ => .pure _

end Overlay.Job

namespace Extractor

/-- What is passed on of a line, with and without a notifier, goes side by side. -/
def NotesMirror (tell : Entry → List Entry) (notifies notifies' : Bool) : Prop :=
  ∀ name b line, Mirrors tell notifies
    (Transcript.forward (if notifies then some (noteSender name b) else none) line)
    (Transcript.forward (if notifies' then some (noteSender name b) else none) line)

variable {notifies' : Bool}

namespace Image

theorem mirrors_index (ht : Retells tell) (d : Document) : Mirrors tell notifies (index d) (index d) := by
  refine .onFault (mirrors_addDocument ht d) fun e => ?_
  split
  · exact .pure false
  · exact .fail e

theorem mirrors_extract (ht : Retells tell) (hn : NotesMirror tell notifies notifies') (s : Setup) (b : Blob)
    (image : FilePath) (p : Params) :
    Mirrors tell notifies (Setup.extract { s with notifies } b image p)
      (Setup.extract { s with notifies := notifies' } b image p) := by
  have hs (line : String) : MirrorsWith tell notifies (Setup.sink { s with notifies } b line)
      (Setup.sink { s with notifies := notifies' } b line) := mirrors_append (hn name b) s.throttle line
  have hl (languages : List String) :
      MirrorsWith tell notifies (Setup.languages { s with notifies } b image languages)
        (Setup.languages { s with notifies := notifies' } b image languages) := by
    induction languages with
    | nil => exact .pure _
    | cons language rest ih =>
      refine .bind ?_ fun o => ?_
      · exact .bind (Command.mirrors_run ht hs _) fun r => .bind (.beside_first _) fun printed => .pure _
      · cases o with
        | interrupted reason => exact .pure _
        | failed failure => exact .pure _
        | success text =>
          refine .bind (.first (mirrors_index ht _)) fun taken => ?_
          cases taken with
          | false => exact .pure _
          | true => exact ih
  unfold Setup.extract
  split
  · exact .fail _
  · exact .lend .empty (hl p.languages)

end Image

namespace Pdf

theorem mirrors_extract (ht : Retells tell) (hn : NotesMirror tell notifies notifies') (s : Setup) (b : Blob)
    (document : FilePath) (p : Params) :
    Mirrors tell notifies (Setup.extract { s with notifies } b document p)
      (Setup.extract { s with notifies := notifies' } b document p) := by
  have hs (line : String) : MirrorsWith tell notifies (Setup.sink { s with notifies } b line)
      (Setup.sink { s with notifies := notifies' } b line) := mirrors_append (hn name b) s.throttle line
  have hw (language : String) :
      MirrorsWith tell notifies (Setup.language { s with notifies } b document p language)
        (Setup.language { s with notifies := notifies' } b document p language) := by
    refine mirrors_withScratch ht s.scratchRoot fun scratch => ?_
    refine .bind (Overlay.Job.mirrors_run ht hs (s.job document p language scratch)) fun o => ?_
    cases o with
    | interrupted reason => exact .pure _
    | failed failure => exact .pure _
    | success output => exact .bind (.first (mirrors_putObject ht _ _)) fun _ => .pure _
  have hl (languages : List String) :
      MirrorsWith tell notifies (Setup.languages { s with notifies } b document p languages)
        (Setup.languages { s with notifies := notifies' } b document p languages) := by
    induction languages with
    | nil => exact .pure _
    | cons language rest ih =>
      refine .bind (hw language) fun o => ?_
      cases o with
      | interrupted reason => exact .pure _
      | failed failure => exact .pure _
      | success u => exact ih
  unfold Setup.extract
  split
  · exact .fail _
  · exact .bind (mirrors_log ht rfl) fun _ => .lend .empty (hl p.languages)

end Pdf
end Extractor
end Intake
