import Intake.Proofs.Command.Endings
import Intake.Proofs.Extractor.Image
import Intake.Proofs.Extractor.Lenience
import Intake.Proofs.Extractor.Pdf
import Intake.Proofs.Overlay.Fallback
import Intake.Proofs.Transcript.Pacing

/-!
# Signs of life of a whole extraction

One relay hears all tools of an extraction. It is fed the lines that they print, one tool after another, so its
signs of life are picked greedily over the whole extraction.
-/
namespace Intake

open Outside Transcript

/-- The lines that the next `n` tools print. -/
def Outside.printed (w : Outside) (n : Nat) : List String := (w.runs.take n).flatMap ToolRun.printed

theorem Outside.printed_one (w : Outside) : w.printed 1 = (w.runs.headD .quiet).printed := by
  rw [printed]
  cases w.runs with
  | nil => simp [ToolRun.printed_quiet]
  | cons p rest => simp

theorem Outside.printed_add {w w' : Outside} {n : Nat} (h : w'.runs = w.runs.drop n) (k : Nat) :
    w.printed (n + k) = w.printed n ++ w'.printed k := by
  simp only [printed]
  rw [h, List.take_add, List.flatMap_append]

/-- What lines and tools meet outside and change. -/
def Outside.surroundings (w : Outside) : List Float × List Reply × List Note × List ToolRun × List Call :=
  (w.clock, w.notifier, w.attemptedNotes, w.runs, w.started)

/-- Whether an entry is neither about a sign of life nor about a tool that is started. -/
def Entry.isAside : Entry → Bool
  | .noted _ | .noteRefused _ | .started _ => false
  | _ => true

theorem Outside.surroundings_log {e : Entry} (h : e.isAside = true) (w : Outside) :
    (w.log e).surroundings = w.surroundings := by
  simp only [surroundings, attemptedNotes_log, started_log]
  cases e <;> simp_all [Entry.isAside, log]

namespace Relay

variable {α β : Type} {r : Relay} {s s₁ s' : Outside × Transcript} {all lines : List String} {f : Fault}

theorem Raises.not_lenient (h : Raises r s f) : ¬s.1.Lenient :=
  fun hl => h.kind (hl.kind_of_reply h.reply)

/-! ## What tools do with a relay -/

/-- A relay is fed lines in their order, up to the first one at which it raises a fault. Then the work ends with
that fault. -/
structure Fed (r : Relay) (s s' : Outside × Transcript) (x : Except Fault α) (all lines : List String) : Prop where
  state : view s' = view (r.feed lines s)
  printed : lines <+: all
  ending : lines = all ∨
    ∃ f front line, x = .error f ∧ lines = front ++ [line] ∧ ((r.sink line).run (r.feed front s)).1 = .error f

/-- A relay hears `n` tools, whose lines it is fed. -/
structure Heard (r : Relay) (s s' : Outside × Transcript) (x : Except Fault α) (n : Nat) (lines : List String) : Prop
    extends Fed r s s' x (s.1.printed n) lines where
  runs : s'.1.runs = s.1.runs.drop n
  started : s'.1.started.length = s.1.started.length + n

/-- The relay hears what an action does. -/
def Hears (r : Relay) (m : Action (Outside × Transcript) α) : Prop :=
  ∀ s, ∃ n lines, Heard r s (m.run s).2 (m.run s).1 n lines

theorem Fed.of_error (h : Fed r s s' (.error f : Except Fault α) all lines) :
    Fed r s s' (.error f : Except Fault β) all lines := by
  refine ⟨h.state, h.printed, h.ending.imp_right ?_⟩
  rintro ⟨g, front, line, hg, hrest⟩
  cases hg
  exact ⟨f, front, line, rfl, hrest⟩

theorem Fed.of_view {x : Except Fault α} {s₂ : Outside × Transcript} (h : Fed r s s' x all lines)
    (hs : view s = view s₁) (hs' : view s₂ = view s') : Fed r s₁ s₂ x all lines := by
  refine ⟨hs'.trans (h.state.trans (feed_congr hs r lines)), h.printed, h.ending.imp_right ?_⟩
  rintro ⟨f, front, line, hx, hlines, hf⟩
  have heq := (sink_congr (feed_congr hs r front) r line).1
  exact ⟨f, front, line, hx, hlines, heq ▸ hf⟩

theorem Fed.append {a : α} {x : Except Fault β} {more rest : List String} (h : Fed r s s₁ (.ok a) all lines)
    (h' : Fed r s₁ s' x more rest) : Fed r s s' x (all ++ more) (lines ++ rest) := by
  have hlines : lines = all := by
    rcases h.ending with hl | ⟨_, _, _, hx, _⟩
    · exact hl
    · cases hx
  subst hlines
  constructor
  · rw [feed_append, h'.state]
    exact feed_congr h.state r rest
  · exact (List.prefix_append_right_inj lines).mpr h'.printed
  · rcases h'.ending with hrest | ⟨f, front, line, hx, hrest, hf⟩
    · exact .inl (congrArg (lines ++ ·) hrest)
    · refine .inr ⟨f, lines ++ front, line, hx, by rw [hrest, List.append_assoc], ?_⟩
      have heq := (sink_congr (feed_congr h.state r front) r line).1
      rw [feed_append, ← heq, hf]

theorem Heard.refl (r : Relay) (s : Outside × Transcript) (x : Except Fault α) : Heard r s s x 0 [] :=
  ⟨⟨rfl, List.nil_prefix, .inl rfl⟩, rfl, rfl⟩

theorem Heard.of_same {x : Except Fault α} {n : Nat} (h : Heard r s s₁ x n lines)
    (hs : s'.1.surroundings = s₁.1.surroundings) (ht : s'.2 = s₁.2) : Heard r s s' x n lines := by
  simp only [surroundings, Prod.mk.injEq] at hs
  obtain ⟨hc, hn, ha, hruns, hstarted⟩ := hs
  have hview : view s' = view s₁ := by simp only [view, hc, hn, ha, ht]
  exact ⟨h.toFed.of_view rfl hview, hruns.trans h.runs, (congrArg List.length hstarted).trans h.started⟩

theorem Heard.append {a : α} {x : Except Fault β} {n k : Nat} {rest : List String}
    (h : Heard r s s₁ (.ok a) n lines) (h' : Heard r s₁ s' x k rest) :
    Heard r s s' x (n + k) (lines ++ rest) := by
  have hfed := h.toFed.append h'.toFed
  rw [← printed_add h.runs] at hfed
  refine ⟨hfed, ?_, ?_⟩
  · rw [h'.runs, h.runs, List.drop_drop]
  · rw [h'.started, h.started, Nat.add_assoc]

namespace Hears

theorem of_keeps {m : Action (Outside × Transcript) α} (h : m.Keeps fun s => (s.1.surroundings, s.2)) :
    Hears r m := by
  intro s
  obtain ⟨hs, ht⟩ := Prod.mk.inj (h s)
  exact ⟨0, [], (Heard.refl r s _).of_same hs ht⟩

theorem pure (a : α) : Hears r (Pure.pure a) := .of_keeps (.pure a)

theorem first {m : Action Outside α} (h : m.Keeps surroundings) : Hears r (.first m) :=
  .of_keeps fun s => congrArg (·, s.2) (h s.1)

theorem bind {m : Action (Outside × Transcript) α} {k : α → Action (Outside × Transcript) β} (hm : Hears r m)
    (hk : ∀ a, Hears r (k a)) : Hears r (m >>= k) := by
  intro s
  obtain ⟨n, lines, h⟩ := hm s
  rw [Action.run_bind]
  rcases hr : m.run s with ⟨x, s₁⟩
  rw [hr] at h
  cases x with
  | error e => exact ⟨n, lines, h.toFed.of_error, h.runs, h.started⟩
  | ok a =>
    obtain ⟨n', rest, h'⟩ := hk a s₁
    exact ⟨n + n', lines ++ rest, h.append h'⟩

theorem withScratch {root : FilePath} {use : FilePath → Action (Outside × Transcript) α}
    (h : ∀ scratch, Hears r (use scratch)) : Hears r (Outside.withScratch root use) := by
  refine .bind (.first fun _ => rfl) fun w => .bind (.first fun w => ?_) fun _ s => ?_
  · exact surroundings_log rfl w
  · obtain ⟨n, lines, hs⟩ := h (.ofString (scratchName root w.scratchCount)) s
    exact ⟨n, lines, hs.of_same (surroundings_log rfl _) rfl⟩

end Hears

theorem keeps_sink {γ : Type} {g : Outside → γ} (hg : Blind g) (r : Relay) (line : String) :
    (r.sink line).Keeps fun s => g s.1 := by
  apply hg.append
  intro send hs text
  rw [Relay.send] at hs
  split at hs
  · cases hs
    exact hg.sendNote _
  · cases hs

theorem feed_of_takes (h : Command.Takes r.sink lines s s') : s' = r.feed lines s := by
  induction h with
  | nil s => rfl
  | cons h _ ih => rw [ih, feed, feed, List.foldl_cons, h]

theorem fed_of_takes (h : Command.Takes r.sink lines s s') (x : Except Fault α) : Fed r s s' x lines lines :=
  ⟨congrArg view (feed_of_takes h), List.prefix_rfl, .inl rfl⟩

theorem fed_of_refuses {j : Nat} (h : Command.Refuses r.sink all j s f s') :
    ∃ lines, Fed r s s' (.error f : Except Fault α) all lines := by
  obtain ⟨hj, ht, hr⟩ := h
  have hs := feed_of_takes ht
  subst hs
  have htake := List.take_prefix (j + 1) all
  rw [List.take_add_one, hj] at htake
  refine ⟨_, ?_, htake, .inr ⟨f, _, _, rfl, rfl, by rw [hr]⟩⟩
  rw [Option.toList, feed_snoc, hr]

/-- A relay is fed the lines that a tool prints, however the tool ends. -/
theorem fed_of_ending {c : Command} {p : ToolRun} {way : Command.Way} {x : Except Fault Command.Result}
    (hc : c.words ≠ []) (h : c.Ending r.sink p s way x s') : ∃ lines, Fed r s s' x p.printed lines := by
  have hstarted (hp : p.startFault = none) : p.printed = Command.linesOf p.stderr := by rw [ToolRun.printed, hp]
  have hmissing {e : Fault} (hp : p.startFault = some e) (he : e.kind = .fileNotFound) :
      p.printed = [e.message] := by
    rw [ToolRun.printed, hp]
    exact if_pos he
  cases h with
  | missing hp he _ hs =>
    rw [hmissing hp he]
    exact ⟨_, fed_of_takes hs _⟩
  | unheard hp he _ hs =>
    rw [hmissing hp he]
    exact fed_of_refuses hs
  | unstarted hp he =>
    have hnone : p.printed = [] := by
      rw [ToolRun.printed, hp]
      exact if_neg he
    rw [hnone]
    exact ⟨[], rfl, List.prefix_rfl, .inl rfl⟩
  | @refused j f s' hp _ hs =>
    have hkilled : view (s'.1.polled.log .killed, s'.2) = view s' := by
      rw [view_log, List.append_nil]
      rfl
    obtain ⟨lines, hfed⟩ := fed_of_refuses hs
    rw [hstarted hp]
    exact ⟨lines, hfed.of_view rfl hkilled⟩
  | outlasted hp hs =>
    obtain ⟨lines, hfed⟩ := fed_of_refuses hs
    rw [hstarted hp]
    exact ⟨lines, hfed.of_view rfl rfl⟩
  | unread hp hs =>
    rw [hstarted hp]
    exact ⟨_, fed_of_takes hs _⟩
  | finished hp hs =>
    rw [hstarted hp]
    exact ⟨_, fed_of_takes hs _⟩
  | nameless _ _ hn => exact absurd hn hc
  | abandoned _ hn => exact absurd hn hc

theorem hears_run {c : Command} (hc : c.words ≠ []) (r : Relay) : Hears r (c.run r.sink) := by
  intro s
  obtain ⟨w, t⟩ := s
  obtain ⟨way, x, s', he⟩ := Command.exists_ending c r.sink (w.runs.headD .quiet) (c.begun w, t)
  have hrun := (Command.run_eq_follow c (w, t)).trans he.run_follow
  have htools := Command.tools_run (keeps_sink blind_tools r) c (w, t)
  rw [hrun] at htools
  simp only [tools, Prod.mk.injEq] at htools
  obtain ⟨hruns, -, hstarted⟩ := htools
  have hview : view (c.begun w, t) = view (w, t) := by
    rw [Command.begun, view_log, List.append_nil]
    rfl
  obtain ⟨lines, hfed⟩ := fed_of_ending hc he
  rw [← printed_one] at hfed
  rw [hrun]
  refine ⟨1, lines, hfed.of_view hview rfl, ?_, ?_⟩
  · rw [hruns, List.drop_one]
  · simp [hstarted]

end Relay

namespace Overlay.Job

theorem hears_steps (r : Relay) (j : Job) (s : Step) (decided : Int) : r.Hears (j.steps r.sink s decided) := by
  -- The rank falls with every step, as it does in the definition of `steps`.
  induction hn : s.rank using Nat.strongRecOn generalizing s decided with
  | ind n ih =>
    rw [steps]
    split
    · exact .pure decided
    · rename_i h
      exact .bind (Relay.hears_run (j.words_ne_nil s) r) fun x => ih _ (hn ▸ Step.rank_next_lt h x.exitCode) _ _ rfl

theorem hears_run (r : Relay) (j : Job) : r.Hears (j.run r.sink) :=
  .bind (hears_steps r j .redo 0) fun _ => .pure _

end Overlay.Job

namespace Extractor

theorem Image.keeps_index (d : Document) : (index d).Keeps surroundings := by
  have hnext : nextIndexReply.Keeps surroundings := fun _ => rfl
  refine .onFault (.bind hnext fun reply => ?_) fun e => ?_
  · cases reply with
    | done => exact .bind (surroundings_log rfl) fun _ => .pure true
    | silence => exact .pure false
    | fails e => exact .fail e
  · split
    · exact .pure false
    · exact .fail e

theorem Pdf.keeps_putObject (key : String) (path : FilePath) : (putObject key path).Keeps surroundings := by
  intro w
  rcases run_putObject key path w with h | ⟨e, h⟩
  · rw [h, surroundings_log rfl]
    rfl
  · rw [h]
    rfl

/-- The relay that an extraction feeds the lines of its tools. -/
def Image.Setup.relay (s : Image.Setup) (b : Blob) : Relay := ⟨s.throttle, s.notifies, some (b.id, Image.name)⟩

def Pdf.Setup.relay (s : Pdf.Setup) (b : Blob) : Relay := ⟨s.throttle, s.notifies, some (b.id, Pdf.name)⟩

theorem Image.hears_languages (s : Image.Setup) (b : Blob) (image : FilePath) (languages : List String) :
    (s.relay b).Hears (s.languages b image languages) := by
  induction languages with
  | nil => exact .pure _
  | cons language rest ih =>
    have hc : (s.tool.command language image).words ≠ [] := List.cons_ne_nil _ _
    have hrun := Relay.hears_run hc (s.relay b)
    refine .bind (.bind hrun fun x => .bind (.of_keeps fun _ => rfl) fun printed => .pure _) fun o => ?_
    cases o with
    | interrupted reason => exact .pure _
    | failed failure => exact .pure _
    | success text =>
      refine .bind (.first (keeps_index _)) fun taken => ?_
      cases taken with
      | false => exact .pure _
      | true => exact ih

theorem Pdf.hears_languages (s : Pdf.Setup) (b : Blob) (document : FilePath) (p : Params)
    (languages : List String) : (s.relay b).Hears (s.languages b document p languages) := by
  have hlanguage (language : String) : (s.relay b).Hears (s.language b document p language) := by
    refine .withScratch fun scratch => ?_
    refine .bind (Overlay.Job.hears_run (s.relay b) (s.job document p language scratch)) fun o => ?_
    cases o with
    | interrupted reason => exact .pure _
    | failed failure => exact .pure _
    | success output => exact .bind (.first (keeps_putObject _ _)) fun _ => .pure _
  induction languages with
  | nil => exact .pure _
  | cons language rest ih =>
    refine .bind (hlanguage language) fun o => ?_
    cases o with
    | interrupted reason => exact .pure _
    | failed failure => exact .pure _
    | success u => exact ih

end Extractor

namespace Relay

/-- How a relay served a piece of work that ran `n` tools. Unless a fault of the notifier cut the work short, it was
fed all that they printed. -/
structure Served (r : Relay) (w : Outside) (x : Except Fault α) (s : Outside × Transcript) (n : Nat)
    (lines : List String) (picked : List Nat) : Prop where
  paced : Paced r lines w s picked
  started : s.1.started.length = w.started.length + n
  printed : lines <+: w.printed n
  whole : (r.notifies = true → w.Lenient) → lines = w.printed n
  cut : lines ≠ w.printed n →
    ∃ f front line, x = .error f ∧ lines = front ++ [line] ∧ Raises r (r.feed front (w, .empty)) f

theorem Hears.exists_served {m : Action (Outside × Transcript) α} (h : Hears r m) (w : Outside) :
    let final := m.run (w, .empty)
    ∃ n lines picked, Served r w final.1 final.2 n lines picked := by
  intro final
  obtain ⟨n, lines, hs⟩ := h (w, .empty)
  obtain ⟨picked, hp⟩ := exists_paced r lines w
  have hcut (hl : lines ≠ w.printed n) :
      ∃ f front line, final.1 = .error f ∧ lines = front ++ [line] ∧ Raises r (r.feed front (w, .empty)) f := by
    rcases hs.ending with he | ⟨f, front, line, hx, hlines, hf⟩
    · exact absurd he hl
    · exact ⟨f, front, line, hx, hlines, raises_of_error hf⟩
  refine ⟨n, lines, picked, hp.of_view hs.state, hs.started, hs.printed, fun hl => ?_, hcut⟩
  by_contra hne
  obtain ⟨f, front, -, -, -, hraises⟩ := hcut hne
  have hw : w.Lenient := hl hraises.notifies
  exact hraises.not_lenient (hw.of_notifier (notifier_feed r front (w, .empty)).subset)

end Relay

namespace Extractor

/-- Signs of life are picked greedily, whatever lines are fed to a relay at whatever times and whatever becomes of
its notes. One relay serves a whole extraction, with all tools that it runs. -/
theorem extractions_paced (b : Blob) (path : FilePath) (p : Params) (w : Outside) :
    (∀ (r : Relay) (lines : List String),
      let s := r.feed lines (w, .empty)
      (∃ picked, r.Paced lines w s picked) ∧
        ∀ line f, (((r.sink line).run s).1 = .error f ↔ r.Raises s f) ∧
          (r.Raises s f → ((r.sink line).run s).2 =
            ({ s.1.ticked with notifier := s.1.notifier.tail }.log (.noteRefused ⟨r.subject, line⟩),
              ⟨lines ++ [line], some (w.reading lines.length)⟩))) ∧
    (∀ s : Image.Setup,
      let final := (s.languages b path p.languages).run (w, .empty)
      (p.languages ≠ [] → (s.extract b path p).run w = (final.1, final.2.1)) ∧
        ∃ n lines picked, (s.relay b).Served w final.1 final.2 n lines picked) ∧
    ∀ s : Pdf.Setup,
      let w₁ := w.log (.directoryMade s.scratchRoot)
      let final := (s.languages b path p p.languages).run (w₁, .empty)
      (p.languages ≠ [] → (s.extract b path p).run w = (final.1, final.2.1)) ∧
        ∃ n lines picked, (s.relay b).Served w₁ final.1 final.2 n lines picked := by
  refine ⟨fun r lines => ?_, fun s => ⟨fun hl => ?_, ?_⟩, fun s => ⟨fun hl => ?_, ?_⟩⟩
  · intro s
    obtain ⟨picked, hp⟩ := r.exists_paced lines w
    refine ⟨⟨picked, hp⟩, fun line f => ⟨⟨Relay.raises_of_error, fun h => ?_⟩, fun h => ?_⟩⟩
    · rw [h.run_sink]
    · rw [h.run_sink, hp.kept, hp.reading 0, Nat.add_zero]
  · exact Image.run_extract hl s b path w
  · exact (Image.hears_languages s b path p.languages).exists_served w
  · exact Pdf.run_extract hl s b path w
  · exact (Pdf.hears_languages s b path p p.languages).exists_served _

/-- The first line is refused and counts. The second one comes too early, and at the third one, of the next tool,
the notifier raises a fault of its own. -/
theorem extractions_paced_of_fault :
    let b : Blob := ⟨"b", "image/png", 1, by decide⟩
    let p : Params := ⟨"i", ["eng", "deu", "fra"], none, none⟩
    let w : Outside := { Outside.calm with
      runs := [⟨0, [], "one\ntwo\n".toUTF8.toList, none, none⟩, ⟨0, [], "three\nfour\n".toUTF8.toList, none, none⟩]
      clock := [100.0, 105.0, 105.5]
      notifier := [.fails (.raised .storageWrite "down"), .fails (.raised .runtime "deaf")] }
    let s := Image.Setup.standard true
    let final := (s.languages b (.ofString "/f") p.languages).run (w, .empty)
    final.1 = .error (.raised .runtime "deaf") ∧
      (s.relay b).Served w final.1 final.2 2 ["one", "two", "three"] [0, 2] := by
  intro b p w s final
  have himages := (extractions_paced b (.ofString "/f") p w).2.1
  obtain ⟨n, lines, picked, hs⟩ := (himages s).2
  have hn : 2 = 0 + n := (by decide +kernel : (2 : Nat) = final.2.1.started.length).trans hs.started
  have hlines : ["one", "two", "three"] = lines :=
    (by decide +kernel : ["one", "two", "three"] = final.2.2.lines).trans hs.paced.kept
  rw [Nat.zero_add] at hn
  subst hn
  subst hlines
  have hpicks : picks s.throttle w.reading 3 = [0, 2] := by decide +kernel
  have hpicked : [0, 2] = picked := hs.paced.unique _ (hpicks ▸ greedy_picks _ _ _)
  rw [hpicked]
  exact ⟨by decide +kernel, hs⟩

end Extractor

end Intake
