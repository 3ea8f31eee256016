import Intake.Proofs.Extractor.Image
import Intake.Proofs.Extractor.Lenience
import Intake.Proofs.Lists
import Mathlib

/-!
# How the reading of an image stops

The languages of an image are read one after another, and what their tools print goes into one transcript.
The first language that does not get through decides how the extraction ends, and nothing is started after it.
-/
namespace Intake

namespace ImageText

/-- How the reading of a text stops, from the run of the tool and all lines printed so far. -/
inductive Stop {α : Type} (p : ToolRun) (printed : List String) : Except Fault (Outcome α) → Prop
  | terminated (h : p.EndsWith 143) : Stop p printed (.ok (.interrupted "tesseract terminated externally"))
  | crashed {code : Int} (h : p.EndsWith code) (hz : code ≠ 0) (ht : code ≠ 143) :
      Stop p printed (.ok (.failed ⟨.subprocessCrashed,
        "Exit code: " ++ toString code ++ ": " ++ "\n".intercalate printed, none⟩))
  | unstarted {e : Fault} (h : p.startFault = some e) (he : e.kind ≠ .fileNotFound) : Stop p printed (.error e)
  | unread {text : String} (hs : p.startFault = none) (h : p.stdoutFault = some text) :
      Stop p printed (.error (.raised .os text))

/-- A tool that ends well leaves its text, and any other one stops the reading. -/
theorem text_or_stop (p : ToolRun) (printed : List String) :
    let o := p.result.map fun r => outcomeOf r ("\n".intercalate printed)
    p.EndsWith 0 ∧ o = .ok (.success (textRead p)) ∨ Stop p printed o := by
  cases hr : p.result with
  | error e =>
    obtain ⟨hs, he⟩ | ⟨hs, text, ho, rfl⟩ := ToolRun.result_eq_error_iff.mp hr
    · exact .inr (.unstarted hs he)
    · exact .inr (.unread hs ho)
  | ok r =>
    have hend : p.EndsWith r.exitCode := ToolRun.endsWith_iff.mpr ⟨r, hr, rfl⟩
    rw [Except.map, outcomeOf]
    by_cases ht : r.exitCode = Command.terminatedCode
    · rw [if_pos ht]
      rw [ht] at hend
      exact .inr (.terminated hend)
    · rw [if_neg ht]
      by_cases hz : r.exitCode = 0
      · rw [if_neg (not_not_intro hz)]
        rw [hz] at hend
        obtain rfl | rfl := ToolRun.result_ok hr
        · cases hz
        · exact .inl ⟨hend, rfl⟩
      · rw [if_pos hz]
        exact .inr (.crashed hend hz ht)

end ImageText

namespace Extractor.Image

/-- How a language ends an extraction, from the run of its tool, the reply of the search index, and all lines
printed so far. -/
inductive Stop (s : Setup) (b : Blob) (language : String) (p : ToolRun) (reply : Reply)
    (printed : List String) : Except Fault (Outcome Value) → Prop
  | tool {r : Except Fault (Outcome Value)} (h : ImageText.Stop p printed r) :
      Stop s b language p reply printed r
  | silent (h : p.EndsWith 0) (hr : reply = .silence) :
      Stop s b language p reply printed (.ok (.failed (s.indexTimeoutFailure b language)))
  | refused {e : Fault} (h : p.EndsWith 0) (hr : reply = .fails e) (he : e.kind ≠ .timeout) :
      Stop s b language p reply printed (.error e)
  /-- A search index that says itself that time ran out. -/
  | late {e : Fault} (h : p.EndsWith 0) (hr : reply = .fails e) (he : e.kind = .timeout) :
      Stop s b language p reply printed (.ok (.failed (s.indexTimeoutFailure b language)))

/-- Of the languages asked for, the first `k` got through. A process was started for each of them, and one for
the language that did not. The transcript had some lines before. -/
structure Stopped (s : Setup) (b : Blob) (image : FilePath) (languages lines : List String) (w w' : Outside)
    (r : Except Fault (Outcome Value)) (k : Nat) : Prop where
  bound : k ≤ languages.length
  indexed : w'.documents = w.documents ++ (readings b w.runs languages).take k
  passed : ∀ n < k, (w.runs.getD n .quiet).EndsWith 0 ∧ w.index.getD n .done = .done
  done : k = languages.length →
    w'.started = w.started ++ calls s image w languages ∧ r = .ok (.success .null)
  stop : ∀ language, languages[k]? = some language →
    w'.started = w.started ++ (calls s image w languages).take (k + 1) ∧
      Stop s b language (w.runs.getD k .quiet) (w.index.getD k .done)
        (lines ++ (w.runs.take (k + 1)).flatMap ToolRun.printed) r

theorem blind_facing : Outside.Blind fun w => (view w, w.index) where
  polls _ _ := rfl
  clock _ _ := rfl
  notifier _ _ := rfl
  noted w n := congrArg (·, w.index) (blind_view.noted w n)
  noteRefused w n := congrArg (·, w.index) (blind_view.noteRefused w n)
  killed w := congrArg (·, w.index) (blind_view.killed w)

variable {s : Setup} {b : Blob} {image : FilePath} {language : String} {rest : List String}
  {st : Outside × Transcript}

theorem recognise_facing (s : Setup) (b : Blob) (image : FilePath) (language : String)
    (st : Outside × Transcript) :
    let w := ((ImageText.recognise s.tool language image (s.sink b)).run st).2.1
    (view w, w.index) = (view ((s.tool.command language image).begun st.1), st.1.index) := by
  have hk (line : String) : (s.sink b line).Keeps fun st => (view st.1, st.1.index) :=
    blind_facing.append_noteSender s.notifies name b s.throttle line
  exact ImageText.recognise_begun blind_facing hk s.tool language image st

theorem recognise_of_lenient (s : Setup) (b : Blob) (image : FilePath) (language : String)
    (h : st.1.Lenient) :
    ∃ o st', (ImageText.recognise s.tool language image (s.sink b)).run st = (o, st') ∧
      ((st.1.runs.headD .quiet).EndsWith 0 ∧
          o = .ok (.success (ImageText.textRead (st.1.runs.headD .quiet))) ∨
        ImageText.Stop (st.1.runs.headD .quiet) st'.2.lines o) ∧
      st'.2.lines = st.2.lines ++ (st.1.runs.headD .quiet).printed ∧ st'.1.Lenient ∧
      view st'.1 = view ((s.tool.command language image).begun st.1) ∧ st'.1.index = st.1.index := by
  have hc : (s.tool.command language image).words ≠ [] := List.cons_ne_nil _ _
  have hv := recognise_facing s b image language st
  obtain ⟨st', hf, hl, h'⟩ := Command.follow_of_lenient (Outside.sends_noteSender s.notifies name b)
    s.throttle hc (st.1.runs.headD .quiet) (s := ((s.tool.command language image).begun st.1, st.2)) h
  have hrun : ((s.tool.command language image).run (s.sink b)).run st =
      ((st.1.runs.headD .quiet).result, st') := (Command.run_eq_follow _ st).trans hf
  have hr : (ImageText.recognise s.tool language image (s.sink b)).run st =
      ((st.1.runs.headD .quiet).result.map fun r => ImageText.outcomeOf r st'.2.text, st') := by
    rw [ImageText.recognise, Action.run_bind, hrun]
    cases (st.1.runs.headD .quiet).result with
    | ok r => rfl
    | error e => rfl
  rw [hr] at hv
  obtain ⟨hv, hi⟩ := Prod.mk.inj hv
  exact ⟨_, st', hr, ImageText.text_or_stop _ _, hl, h', hv, hi⟩

theorem run_of_not_taken {d : Document} {w : Outside} (hd : w.index.headD .done ≠ .done) (t : Transcript)
    (m : Action (Outside × Transcript) (Outcome Value)) (f : Failure) :
    (do if ← .first (index d) then m else return .failed f : Action (Outside × Transcript) (Outcome Value)).run
        (w, t) =
      ((answer (w.index.headD .done)).map fun _ => .failed f, { w with index := w.index.tail }, t) := by
  rw [Action.run_bind, Action.run_first, index_eq, if_neg hd]
  cases hx : answer (w.index.headD .done) with
  | error e => rfl
  | ok taken =>
    have hf : taken = false := by
      rw [Bool.eq_false_iff]
      rintro rfl
      exact hd (answer_eq_true_iff.mp hx)
    rw [hf]
    rfl

theorem stop_of_answer {p : ToolRun} {reply : Reply} {printed : List String} (hp : p.EndsWith 0)
    (hr : reply ≠ .done) :
    Stop s b language p reply printed
      ((answer reply).map fun _ => .failed (s.indexTimeoutFailure b language)) := by
  cases reply with
  | done => exact absurd rfl hr
  | silence => exact .silent hp rfl
  | fails e =>
    by_cases he : e.kind = .timeout
    · rw [answer, if_pos he]
      exact .late hp rfl he
    · rw [answer, if_neg he]
      exact .refused hp rfl he

/-- What a language leaves to those after it when its reading is in the search index. -/
structure GetsThrough (s : Setup) (b : Blob) (image : FilePath) (language : String)
    (st st' : Outside × Transcript) : Prop where
  ended : (st.1.runs.headD .quiet).EndsWith 0
  taken : st.1.index.headD .done = .done
  lines : st'.2.lines = st.2.lines ++ (st.1.runs.headD .quiet).printed
  index : st'.1.index = st.1.index.tail
  view : view st'.1 = (st.1.documents ++ [⟨b.id, ImageText.textRead (st.1.runs.headD .quiet), language⟩],
    st.1.runs.tail, st.1.environment,
    st.1.started ++ [(s.tool.command language image).call st.1.environment])
  lenient : st'.1.Lenient

/-- A language gets through and the rest follow, or it decides how the extraction ends. -/
theorem languages_cons (s : Setup) (b : Blob) (image : FilePath) (language : String) (rest : List String)
    (h : st.1.Lenient) :
    (∃ st', GetsThrough s b image language st st' ∧
      (s.languages b image (language :: rest)).run st = (s.languages b image rest).run st') ∨
    ∃ r st', (s.languages b image (language :: rest)).run st = (r, st') ∧
      view st'.1 = view ((s.tool.command language image).begun st.1) ∧
      Stop s b language (st.1.runs.headD .quiet) (st.1.index.headD .done)
        (st.2.lines ++ (st.1.runs.headD .quiet).printed) r := by
  obtain ⟨o, ⟨w₁, t₁⟩, hr, ht, hl, h₁, hv, hi⟩ := recognise_of_lenient s b image language h
  rw [Setup.languages, Action.run_bind, hr]
  dsimp only at ht hl h₁ hv hi
  obtain ⟨hp, rfl⟩ | ht := ht
  · dsimp only
    rw [← hi]
    by_cases hd : w₁.index.headD .done = .done
    · rw [view_begun] at hv
      obtain ⟨hdocs, hruns, henv, hstarted⟩ := of_view hv
      let d : Document := ⟨b.id, ImageText.textRead (st.1.runs.headD .quiet), language⟩
      let w₂ := { w₁ with index := w₁.index.tail }.log (.indexed d)
      have hw : view w₂ = (w₁.documents ++ [d], w₁.runs, w₁.environment, w₁.started) := by
        rw [view_log, List.append_nil]
        rfl
      rw [hdocs, hruns, henv, hstarted] at hw
      rw [Action.run_bind, Action.run_first, index_eq, if_pos hd, hd]
      exact .inl ⟨(w₂, t₁), ⟨hp, hi ▸ hd, hl, congrArg List.tail hi, hw, h₁⟩, rfl⟩
    · rw [run_of_not_taken hd]
      exact .inr ⟨_, _, rfl, hv, stop_of_answer hp hd⟩
  · rw [hl] at ht
    cases ht with
    | terminated hp => exact .inr ⟨_, _, rfl, hv, .tool (.terminated hp)⟩
    | crashed hp hz h143 => exact .inr ⟨_, _, rfl, hv, .tool (.crashed hp hz h143)⟩
    | unstarted hs he => exact .inr ⟨_, _, rfl, hv, .tool (.unstarted hs he)⟩
    | unread hs ho => exact .inr ⟨_, _, rfl, hv, .tool (.unread hs ho)⟩

theorem printed_take_succ (runs : List ToolRun) (k : Nat) :
    (runs.take (k + 1)).flatMap ToolRun.printed =
      (runs.headD .quiet).printed ++ (runs.tail.take k).flatMap ToolRun.printed := by
  cases runs with
  | nil => simp [ToolRun.printed_quiet]
  | cons p runs => rfl

theorem stopped_here {w w' : Outside} {lines : List String} {r : Except Fault (Outcome Value)}
    (hv : view w' = view ((s.tool.command language image).begun w))
    (h : Stop s b language (w.runs.headD .quiet) (w.index.headD .done)
      (lines ++ (w.runs.headD .quiet).printed) r) :
    Stopped s b image (language :: rest) lines w w' r 0 := by
  rw [view_begun] at hv
  obtain ⟨hd, -, -, hs⟩ := of_view hv
  refine ⟨Nat.zero_le _, ?_, nofun, nofun, ?_⟩
  · rw [hd, List.take_zero, List.append_nil]
  · intro l hl
    obtain rfl : language = l := Option.some.inj hl
    constructor
    · rw [hs, calls, List.map_cons, List.take_succ_cons, List.take_zero]
    · rw [printed_take_succ, List.take_zero, List.flatMap_nil, List.append_nil, ← List.headD_eq_getD,
        ← List.headD_eq_getD]
      exact h

theorem stopped_next {st' : Outside × Transcript} {w' : Outside} {r : Except Fault (Outcome Value)} {k : Nat}
    (hg : GetsThrough s b image language st st') (h : Stopped s b image rest st'.2.lines st'.1 w' r k) :
    Stopped s b image (language :: rest) st.2.lines st.1 w' r (k + 1) := by
  obtain ⟨hd, hr, he, hs⟩ := of_view hg.view
  obtain ⟨hbound, hindexed, hpassed, hdone, hstop⟩ := h
  rw [hr, hg.index] at hpassed hstop
  have hcalls : calls s image st'.1 rest = calls s image st.1 rest := by rw [calls, he, calls]
  rw [hs, hcalls] at hdone hstop
  constructor
  · exact Nat.succ_le_succ hbound
  · rw [hindexed, hd, hr, readings_cons, List.take_succ_cons, List.append_assoc, List.singleton_append]
  · intro n hn
    cases n with
    | zero =>
      rw [← List.headD_eq_getD, ← List.headD_eq_getD]
      exact ⟨hg.ended, hg.taken⟩
    | succ n =>
      rw [Lists.getD_succ, Lists.getD_succ]
      exact hpassed n (Nat.lt_of_succ_lt_succ hn)
  · intro hk
    obtain ⟨hst, hr⟩ := hdone (Nat.succ.inj hk)
    refine ⟨?_, hr⟩
    rw [hst, List.append_assoc, List.singleton_append]
    rfl
  · intro l hl
    obtain ⟨hst, hstop⟩ := hstop l hl
    constructor
    · rw [hst, List.append_assoc, List.singleton_append]
      rfl
    · rw [Lists.getD_succ, Lists.getD_succ, printed_take_succ, ← List.append_assoc, ← hg.lines]
      exact hstop

theorem languages_stopped (s : Setup) (b : Blob) (image : FilePath) (languages : List String)
    (st : Outside × Transcript) (h : st.1.Lenient) :
    ∃ k, Stopped s b image languages st.2.lines st.1 ((s.languages b image languages).run st).2.1
      ((s.languages b image languages).run st).1 k := by
  -- Each language meets the outside and the transcript that the one before it left.
  induction languages generalizing st with
  | nil =>
    have hnil (l : List Call) : l = l ++ [] := (List.append_nil l).symm
    exact ⟨0, Nat.le_refl 0, (List.append_nil _).symm, nofun, fun _ => ⟨hnil _, rfl⟩, nofun⟩
  | cons language rest ih =>
    obtain ⟨st', hg, hr⟩ | ⟨r, st', hr, hv, hstop⟩ := languages_cons s b image language rest h
    · obtain ⟨k, hk⟩ := ih st' hg.lenient
      rw [hr]
      exact ⟨k + 1, stopped_next hg hk⟩
    · rw [hr]
      exact ⟨0, stopped_here hv hstop⟩

/-- How an extraction stops. Some languages get through, and if any is left, the first of these decides. Asked
for no language, the extractor does nothing. -/
theorem extract_stops (s : Setup) (b : Blob) (image : FilePath) (p : Params) {w : Outside} (h : w.Lenient) :
    p.languages = [] ∧ (∃ e, (s.extract b image p).run w = (.error e, w) ∧ e.kind = .missingParameter) ∨
      p.languages ≠ [] ∧ ∃ k, Stopped s b image p.languages [] w ((s.extract b image p).run w).2
        ((s.extract b image p).run w).1 k := by
  unfold Setup.extract
  split
  · rename_i hl
    exact .inl ⟨List.isEmpty_iff.mp hl, _, rfl, rfl⟩
  · rename_i hl
    exact .inr ⟨fun hn => hl (List.isEmpty_iff.mpr hn),
      languages_stopped s b image p.languages (w, .empty) h⟩

theorem extract_stops_of_crash :
    let b : Blob := ⟨"b", "image/png", 1, by decide⟩
    let p : Params := ⟨"i", ["eng", "deu", "eng"], none, none⟩
    let w : Outside := { Outside.calm with
      runs := [⟨0, "page\n".toUTF8.toList, "one\n".toUTF8.toList, none, none⟩, ⟨3, [], [], none, none⟩]
      notifier := [.fails (.raised .storageWrite "down")] }
    let run := ((Setup.standard true).extract b (.ofString "/f") p).run w
    w.Lenient ∧ run.1 = .ok (.failed ⟨.subprocessCrashed, "Exit code: 3: one", none⟩) ∧
      run.2.documents = [⟨"b", some "page\n", "eng"⟩] ∧
      Stopped (.standard true) b (.ofString "/f") p.languages [] w run.2 run.1 1 := by
  intro b p w run
  have h : w.Lenient := by
    intro e he
    cases List.mem_singleton.mp he
    rfl
  have hd : run.2.documents = [⟨"b", some "page\n", "eng"⟩] := by decide +kernel
  refine ⟨h, by decide +kernel, hd, ?_⟩
  obtain ⟨hl, -⟩ | ⟨-, k, hk⟩ := extract_stops (.standard true) b (.ofString "/f") p h
  · cases hl
  · have hlength := congrArg List.length (hd.symm.trans hk.indexed)
    have hbound := hk.bound
    simp only [Outside.documents, w, Outside.calm, readings, p, List.filterMap_nil, List.nil_append,
      List.length_take, List.length_mapIdx, List.length_cons, List.length_nil] at hlength hbound
    obtain rfl : k = 1 := by omega
    exact hk

end Extractor.Image
end Intake
