import Intake.Extractor.Image
import Intake.Proofs.Extractor.Frames
import Intake.Proofs.Extractor.Progress

/-!
# What reaches the search index

The images of a blob are read in one language after another, and what reaches the search index are the
readings of the first languages. They are all there just when the extractor succeeds.
-/
namespace Intake

namespace ImageText

/-- The text that a run of the recogniser amounts to. -/
def textRead (p : ToolRun) : Option String :=
  let text := String.ofList (Command.textOf p.stdout)
  if Text.isBlankText text then none else some text

theorem outcomeOf_success {r : Command.Result} {printed : String} {text : Option String}
    (h : outcomeOf r printed = .success text) :
    r.exitCode = 0 ∧ text = if Text.isBlankText r.stdout then none else some r.stdout := by
  unfold outcomeOf at h
  split at h
  · cases h
  · split at h
    · cases h
    · rename_i hz
      cases h
      exact ⟨Decidable.of_not_not hz, rfl⟩

variable {τ γ : Type} {f : Outside → γ}

theorem recognise_begun (hf : Outside.Blind f) {sink : String → Action (Outside × Transcript) Unit}
    (hs : ∀ line, (sink line).Keeps fun s => f s.1) (t : Tool) (language : String) (image : FilePath)
    (s : Outside × Transcript) :
    f ((recognise t language image sink).run s).2.1 = f ((t.command language image).begun s.1) := by
  have hk := Command.keeps_follow hf hs (t.command language image) (s.1.runs.headD .quiet)
    ((t.command language image).begun s.1, s.2)
  rw [← Command.run_eq_follow] at hk
  rw [recognise, Action.run_bind]
  cases hr : ((t.command language image).run sink).run s with
  | mk r s' =>
    rw [hr] at hk
    cases r <;> exact hk

theorem recognise_success {sink : String → Action (Outside × Transcript) Unit} {t : Tool}
    {language : String} {image : FilePath} {s s' : Outside × Transcript} {text : Option String}
    (h : (recognise t language image sink).run s = (.ok (.success text), s')) :
    text = textRead (s.1.runs.headD .quiet) := by
  obtain ⟨r, s₁, hr, h⟩ := Action.run_bind_eq_ok_iff.mp h
  rw [Command.run_eq_follow] at hr
  have hs : outcomeOf r s₁.2.text = .success text := Except.ok.inj (Prod.mk.inj h).1
  obtain ⟨hz, rfl⟩ := outcomeOf_success hs
  rcases Command.follow_ok hr with rfl | rfl
  · cases hz
  · rfl

end ImageText

namespace Extractor.Image

/-- What the search index took, what tools will do and in which environment, and which were started. -/
def view (w : Outside) : List Document × List ToolRun × List (String × String) × List Call :=
  (w.documents, w.runs, w.environment, w.started)

theorem view_log (e : Entry) (w : Outside) :
    view (w.log e) = (w.documents ++ (match e with | .indexed d => [d] | _ => []), w.runs, w.environment,
      w.started ++ (match e with | .started c => [c] | _ => [])) := by
  rw [view, Outside.documents_log, Outside.started_log]
  rfl

theorem of_view {w : Outside} {ds : List Document} {runs : List ToolRun} {env : List (String × String)}
    {cs : List Call} (h : view w = (ds, runs, env, cs)) :
    w.documents = ds ∧ w.runs = runs ∧ w.environment = env ∧ w.started = cs := by
  simpa [view] using h

theorem view_begun (c : Command) (w : Outside) :
    view (c.begun w) = (w.documents, w.runs.tail, w.environment, w.started ++ [c.call w.environment]) := by
  rw [Command.begun, view_log, List.append_nil]
  rfl

theorem blind_view : Outside.Blind view where
  polls _ _ := rfl
  clock _ _ := rfl
  notifier _ _ := rfl
  noted w n := by rw [view_log, List.append_nil, List.append_nil, view]
  noteRefused w n := by rw [view_log, List.append_nil, List.append_nil, view]
  killed w := by rw [view_log, List.append_nil, List.append_nil, view]

theorem keeps_sink (s : Setup) (b : Blob) (line : String) : (s.sink b line).Keeps fun s => view s.1 :=
  blind_view.append_noteSender s.notifies name b s.throttle line

/-- What it comes to that the search index is given a document. -/
def answer : Reply → Except Fault Bool
  | .done => .ok true
  | .silence => .ok false
  | .fails e => if e.kind = .timeout then .ok false else .error e

theorem answer_eq_true_iff {reply : Reply} : answer reply = .ok true ↔ reply = .done := by
  cases reply with
  | done => simp [answer]
  | silence => simp [answer]
  | fails e =>
    by_cases h : e.kind = .timeout
    · simp [answer, h]
    · simp [answer, h]

theorem index_eq (d : Document) (w : Outside) :
    (index d).run w = (answer (w.index.headD .done),
      if w.index.headD .done = .done then { w with index := w.index.tail }.log (.indexed d)
      else { w with index := w.index.tail }) := by
  have hn : Outside.nextIndexReply.run w =
      (.ok (w.index.headD .done), { w with index := w.index.tail }) := by
    rw [← Outside.pop_fst, ← Outside.pop_snd .done]
    rfl
  rw [index, Action.run_onFault, Outside.addDocument, Action.run_bind_of_ok hn]
  cases w.index.headD .done with
  | done => rfl
  | silence => rfl
  | fails e =>
    have hne : Reply.fails e ≠ .done := by simp
    rw [Action.run_fail, answer, if_neg hne]
    dsimp only
    split
    · rfl
    · rfl

theorem index_run (d : Document) (w : Outside) :
    ((index d).run w).1 = .ok true ∧
        view ((index d).run w).2 = (w.documents ++ [d], w.runs, w.environment, w.started) ∨
      ((index d).run w).1 ≠ .ok true ∧ view ((index d).run w).2 = view w := by
  rw [index_eq]
  by_cases hr : w.index.headD .done = .done
  · rw [if_pos hr, view_log, List.append_nil]
    exact .inl ⟨answer_eq_true_iff.mpr hr, rfl⟩
  · rw [if_neg hr]
    exact .inr ⟨fun h => hr (answer_eq_true_iff.mp h), rfl⟩

def readings (b : Blob) (runs : List ToolRun) (languages : List String) : List Document :=
  languages.mapIdx fun n language => ⟨b.id, ImageText.textRead (runs.getD n .quiet), language⟩

theorem readings_cons (b : Blob) (runs : List ToolRun) (language : String) (rest : List String) :
    readings b runs (language :: rest) =
      ⟨b.id, ImageText.textRead (runs.headD .quiet), language⟩ :: readings b runs.tail rest := by
  rw [readings, List.mapIdx_cons, readings]
  cases runs <;> simp

def calls (s : Setup) (image : FilePath) (w : Outside) (languages : List String) : List Call :=
  languages.map fun language => (s.tool.command language image).call w.environment

/-- How far the readings of an image got. The processes started are those of the languages read. -/
structure Delivered (s : Setup) (b : Blob) (image : FilePath) (languages : List String) (w w' : Outside)
    (r : Except Fault (Outcome Value)) (n : Nat) : Prop where
  progress : Progress w.documents w'.documents (readings b w.runs languages) r n
  started : ∃ m, n ≤ m ∧ w'.started = w.started ++ (calls s image w languages).take m

theorem delivered_none {s : Setup} {b : Blob} {image : FilePath} {language : String} {rest : List String}
    {w w' : Outside} {r : Except Fault (Outcome Value)}
    (hv : view w' = view ((s.tool.command language image).begun w)) (hr : ¬∃ v, r = .ok (.success v)) :
    Delivered s b image (language :: rest) w w' r 0 := by
  rw [view_begun] at hv
  obtain ⟨hd, -, -, hs⟩ := of_view hv
  refine ⟨?_, 1, Nat.zero_le 1, ?_⟩
  · rw [readings_cons]
    exact .stop hd hr
  · rw [hs, calls, List.map_cons, List.take_succ_cons, List.take_zero]

theorem delivered_next {s : Setup} {b : Blob} {image : FilePath} {language : String} {rest : List String}
    {w w₁ w' : Outside} {r : Except Fault (Outcome Value)} {n : Nat}
    (hv : view w₁ = (w.documents ++ [⟨b.id, ImageText.textRead (w.runs.headD .quiet), language⟩],
      w.runs.tail, w.environment, w.started ++ [(s.tool.command language image).call w.environment]))
    (h : Delivered s b image rest w₁ w' r n) : Delivered s b image (language :: rest) w w' r (n + 1) := by
  obtain ⟨hd, hr, he, hs⟩ := of_view hv
  obtain ⟨hp, m, hm, hst⟩ := h
  refine ⟨?_, m + 1, Nat.succ_le_succ hm, ?_⟩
  · rw [hd, hr] at hp
    rw [readings_cons]
    exact hp.next
  · rw [hst, hs, calls, calls, he, List.map_cons, List.take_succ_cons, List.append_assoc,
      List.singleton_append]

theorem languages_delivered (s : Setup) (b : Blob) (image : FilePath) (languages : List String)
    (st : Outside × Transcript) :
    ∃ n, Delivered s b image languages st.1 ((s.languages b image languages).run st).2.1
      ((s.languages b image languages).run st).1 n := by
  -- Each language meets the outside that the one before it left, so the state is any.
  induction languages generalizing st with
  | nil => exact ⟨0, .done _ _, 0, Nat.le_refl 0, (List.append_nil _).symm⟩
  | cons language rest ih =>
    have hv := ImageText.recognise_begun blind_view (keeps_sink s b) s.tool language image st
    rw [Setup.languages, Action.run_bind]
    cases hr : (ImageText.recognise s.tool language image (s.sink b)).run st with
    | mk o st₁ =>
      obtain ⟨w₁, t₁⟩ := st₁
      rw [hr] at hv
      rcases o with f | text | reason | failure
      · exact ⟨0, delivered_none hv nofun⟩
      · obtain rfl := ImageText.recognise_success hr
        dsimp only
        rw [Action.run_bind, Action.run_first]
        have hi := index_run ⟨b.id, ImageText.textRead (st.1.runs.headD .quiet), language⟩ w₁
        cases hx : (index ⟨b.id, ImageText.textRead (st.1.runs.headD .quiet), language⟩).run w₁ with
        | mk q w₂ =>
          rw [hx] at hi
          obtain ⟨rfl, hw⟩ | ⟨hq, hw⟩ := hi
          · obtain ⟨n, hn⟩ := ih (w₂, t₁)
            rw [view_begun] at hv
            obtain ⟨hd, hrs, he, hs⟩ := of_view hv
            rw [hd, hrs, he, hs] at hw
            exact ⟨n + 1, delivered_next hw hn⟩
          · rcases q with f | _ | _
            · exact ⟨0, delivered_none (hw.trans hv) nofun⟩
            · exact ⟨0, delivered_none (hw.trans hv) nofun⟩
            · exact absurd rfl hq
      · exact ⟨0, delivered_none hv nofun⟩
      · exact ⟨0, delivered_none hv nofun⟩

theorem run_extract {p : Params} (hl : p.languages ≠ []) (s : Setup) (b : Blob) (image : FilePath) (w : Outside) :
    let final := (s.languages b image p.languages).run (w, .empty)
    (s.extract b image p).run w = (final.1, final.2.1) := by
  simp only [Setup.extract, List.isEmpty_iff, hl]
  rfl

/-- What the extractor delivers of the languages it is asked for. Asked for none, it does nothing. -/
theorem extract_delivered (s : Setup) (b : Blob) (image : FilePath) (p : Params) (w : Outside) :
    p.languages = [] ∧ (¬∃ v, ((s.extract b image p).run w).1 = .ok (.success v)) ∧
        ((s.extract b image p).run w).2 = w ∨
      p.languages ≠ [] ∧ ∃ n, Delivered s b image p.languages w ((s.extract b image p).run w).2
        ((s.extract b image p).run w).1 n := by
  unfold Setup.extract
  split
  · rename_i h
    exact .inl ⟨List.isEmpty_iff.mp h, nofun, rfl⟩
  · rename_i h
    exact .inr ⟨fun hn => h (List.isEmpty_iff.mpr hn), languages_delivered s b image p.languages (w, .empty)⟩

end Extractor.Image
end Intake
