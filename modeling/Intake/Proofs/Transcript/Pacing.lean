import Intake.Proofs.Extractor.Frames
import Intake.Proofs.Transcript.Greedy

/-!
# Lines that are kept and forwarded

A relay keeps the lines that it is fed, and forwards the ones that are picked greedily by the times at which they
come. A line that the event log does not take counts like one that it takes.
-/
namespace Intake

namespace Outside

/-- The `n`th reading of the clock from now on. -/
def reading (w : Outside) (n : Nat) : Float := w.clock.getD (min n (w.clock.length - 1)) 0.0

/-- The outside when the clock was read once. -/
def ticked (w : Outside) : Outside := { w with clock := (popKeeping 0.0 w.clock).2 }

theorem popKeeping_fst (w : Outside) : (popKeeping 0.0 w.clock).1 = w.reading 0 := by
  rw [reading]
  rcases w.clock with _ | ⟨a, _ | ⟨b, rest⟩⟩ <;> simp [popKeeping]

theorem reading_ticked (w : Outside) (n : Nat) : w.ticked.reading n = w.reading (n + 1) := by
  rw [reading, reading, ticked]
  rcases w.clock with _ | ⟨a, _ | ⟨b, rest⟩⟩
  · rfl
  · simp [popKeeping]
  · have hmin : min (n + 1) (rest.length + 1) = min n rest.length + 1 := by omega
    simp [popKeeping, hmin]

theorem attemptedNotes_log (e : Entry) (w : Outside) :
    (w.log e).attemptedNotes =
      w.attemptedNotes ++ (match e with | .noted n | .noteRefused n => [n] | _ => []) := by
  cases e <;> simp [attemptedNotes]

end Outside

open Outside Transcript

/-- How the lines of an attempt are forwarded. -/
structure Relay where
  throttle : Float
  /-- Whether signs of life are passed on. -/
  notifies : Bool
  /-- Whom the signs of life are about. -/
  subject : Option (String × String)

namespace Relay

def send (r : Relay) : Option (String → Action Outside Unit) :=
  if r.notifies then some fun line => sendNote ⟨r.subject, line⟩ else none

def sink (r : Relay) : String → Action (Outside × Transcript) Unit := append r.throttle r.send

/-- Takes lines one after another, each one whatever became of those before it. -/
def feed (r : Relay) (lines : List String) (s : Outside × Transcript) : Outside × Transcript :=
  lines.foldl (fun s line => ((r.sink line).run s).2) s

/-- The signs of life that come of a line that is forwarded. -/
def notes (r : Relay) (line : String) : List Note := if r.notifies then [⟨r.subject, line⟩] else []

/-- What lines that come one after another leave, of which some are picked. -/
structure Paced (r : Relay) (lines : List String) (w : Outside) (s : Outside × Transcript) (picked : List Nat) :
    Prop where
  greedy : Greedy r.throttle w.reading lines.length picked
  unique : ∀ other, Greedy r.throttle w.reading lines.length other → other = picked
  apart : picked.IsChain fun m j => r.throttle < w.reading j - w.reading m
  between : ∀ k < lines.length, k ∉ picked →
    ∃ m, LastBefore picked k m ∧ ¬r.throttle < w.reading k - w.reading m
  notes : s.1.attemptedNotes = w.attemptedNotes ++ (picked.filterMap (lines[·]?)).flatMap r.notes
  lastNote : s.2.lastNote = picked.getLast?.map w.reading
  kept : s.2.lines = lines
  text : s.2.text = "\n".intercalate lines
  reading : ∀ n, s.1.reading n = w.reading (lines.length + n)

/-- The notifier is asked about the next line and raises a fault that is not one of writing to the log. -/
structure Raises (r : Relay) (s : Outside × Transcript) (f : Fault) : Prop where
  notifies : r.notifies = true
  due : due r.throttle s.2.lastNote (s.1.reading 0) = true
  reply : s.1.notifier.headD .done = .fails f
  kind : f.kind ≠ .storageWrite

variable {r : Relay} {w : Outside} {t : Transcript} {s s' : Outside × Transcript} {line : String}
  {lines : List String} {f : Fault}

theorem run_forward (h : r.notifies = true) (line : String) (w : Outside) :
    (forward r.send line).run w =
      match w.notifier.headD .done with
      | .fails e =>
        (if e.kind = .storageWrite then .ok () else .error e,
          { w with notifier := w.notifier.tail }.log (.noteRefused ⟨r.subject, line⟩))
      | _ => (.ok (), { w with notifier := w.notifier.tail }.log (.noted ⟨r.subject, line⟩)) := by
  rw [send, if_pos h]
  exact Outside.run_forward rfl w

theorem run_forward_of_silent (h : r.notifies = false) (line : String) (w : Outside) :
    (forward r.send line).run w = (.ok (), w) := by
  simp [send, h, forward]

theorem attemptedNotes_forward (r : Relay) (line : String) (w : Outside) :
    ((forward r.send line).run w).2.attemptedNotes = w.attemptedNotes ++ r.notes line := by
  cases h : r.notifies with
  | false => simp [run_forward_of_silent h, notes, h]
  | true =>
    rw [run_forward h, notes, if_pos h]
    cases w.notifier.headD .done <;> exact attemptedNotes_log _ _

theorem clock_forward (r : Relay) (line : String) (w : Outside) :
    ((forward r.send line).run w).2.clock = w.clock := by
  cases h : r.notifies with
  | false => rw [run_forward_of_silent h]
  | true =>
    rw [run_forward h]
    cases w.notifier.headD .done <;> rfl

theorem notifier_forward (r : Relay) (line : String) (w : Outside) :
    ((forward r.send line).run w).2.notifier = if r.notifies then w.notifier.tail else w.notifier := by
  cases h : r.notifies with
  | false => simp [run_forward_of_silent h]
  | true =>
    rw [run_forward h]
    cases w.notifier.headD .done <;> rfl

theorem forward_congr {w w' : Outside} (h : w.notifier = w'.notifier) (r : Relay) (line : String) :
    ((forward r.send line).run w).1 = ((forward r.send line).run w').1 := by
  cases hn : r.notifies with
  | false => rw [run_forward_of_silent hn, run_forward_of_silent hn]
  | true =>
    rw [run_forward hn, run_forward hn, h]
    cases w'.notifier.headD .done <;> rfl

theorem run_sink (r : Relay) (line : String) (w : Outside) (t : Transcript) :
    (r.sink line).run (w, t) =
      if due r.throttle t.lastNote (w.reading 0) then
        (((forward r.send line).run w.ticked).1, ((forward r.send line).run w.ticked).2,
          ⟨t.lines ++ [line], some (w.reading 0)⟩)
      else (.ok (), w.ticked, ⟨t.lines ++ [line], t.lastNote⟩) := by
  have hrun : (r.sink line).run (w, t) =
      (if due r.throttle t.lastNote (popKeeping 0.0 w.clock).1 then
        (do
          .second (.modify fun t => { t with lastNote := some (popKeeping 0.0 w.clock).1 })
          .first (forward r.send line) : Action (Outside × Transcript) Unit)
      else pure ()).run (w.ticked, { t with lines := t.lines ++ [line] }) := rfl
  rw [hrun, popKeeping_fst]
  split <;> rfl

theorem lines_sink (r : Relay) (line : String) (s : Outside × Transcript) :
    ((r.sink line).run s).2.2.lines = s.2.lines ++ [line] := by
  obtain ⟨w, t⟩ := s
  rw [run_sink]
  split <;> rfl

theorem reading_sink (r : Relay) (line : String) (s : Outside × Transcript) (n : Nat) :
    ((r.sink line).run s).2.1.reading n = s.1.reading (n + 1) := by
  obtain ⟨w, t⟩ := s
  rw [run_sink, ← reading_ticked]
  split
  · rw [reading, clock_forward, reading]
  · rfl

theorem raises_of_error (h : ((r.sink line).run s).1 = .error f) : Raises r s f := by
  obtain ⟨w, t⟩ := s
  rw [run_sink] at h
  split at h
  · rename_i hd
    cases hn : r.notifies with
    | false =>
      rw [run_forward_of_silent hn] at h
      cases h
    | true =>
      rw [run_forward hn] at h
      cases hr : w.ticked.notifier.headD .done with
      | done =>
        rw [hr] at h
        cases h
      | silence =>
        rw [hr] at h
        cases h
      | fails e =>
        rw [hr] at h
        by_cases he : e.kind = .storageWrite
        · simp [he] at h
        · have hf : e = f := by simpa [he] using h
          subst hf
          exact ⟨hn, hd, hr, he⟩
  · cases h

theorem Raises.run_sink (h : Raises r s f) (line : String) :
    (r.sink line).run s =
      (.error f, { s.1.ticked with notifier := s.1.notifier.tail }.log (.noteRefused ⟨r.subject, line⟩),
        ⟨s.2.lines ++ [line], some (s.1.reading 0)⟩) := by
  obtain ⟨w, t⟩ := s
  have hr : w.ticked.notifier.headD .done = .fails f := h.reply
  rw [Relay.run_sink, if_pos h.due, run_forward h.notifies, hr]
  simp only [if_neg h.kind]
  rfl

/-! ## What a relay that was fed has left -/

theorem feed_snoc (r : Relay) (lines : List String) (line : String) (s : Outside × Transcript) :
    r.feed (lines ++ [line]) s = ((r.sink line).run (r.feed lines s)).2 := by
  simp [feed]

theorem feed_append (r : Relay) (front rest : List String) (s : Outside × Transcript) :
    r.feed (front ++ rest) s = r.feed rest (r.feed front s) :=
  List.foldl_append

theorem lines_feed (r : Relay) (lines : List String) (s : Outside × Transcript) :
    (r.feed lines s).2.lines = s.2.lines ++ lines := by
  induction lines using List.reverseRecOn with
  | nil => simp [feed]
  | append_singleton lines line ih => rw [feed_snoc, lines_sink, ih, List.append_assoc]

theorem reading_feed (r : Relay) (lines : List String) (s : Outside × Transcript) (n : Nat) :
    (r.feed lines s).1.reading n = s.1.reading (lines.length + n) := by
  induction lines using List.reverseRecOn generalizing n with
  | nil => simp [feed]
  | append_singleton lines line ih =>
    rw [feed_snoc, reading_sink, ih, List.length_append, List.length_singleton]
    congr 1
    omega

theorem filterMap_getElem?_snoc {picked : List Nat} (h : ∀ j ∈ picked, j < lines.length) (line : String) :
    picked.filterMap ((lines ++ [line])[·]?) = picked.filterMap (lines[·]?) := by
  apply List.filterMap_congr
  intro j hj
  exact List.getElem?_append_left (h j hj)

/-- The lines that are picked are the ones attempted, and the last of them is the one that counts. -/
theorem feed_picks (r : Relay) (lines : List String) (w : Outside) :
    let picked := picks r.throttle w.reading lines.length
    let s := r.feed lines (w, .empty)
    s.1.attemptedNotes = w.attemptedNotes ++ (picked.filterMap (lines[·]?)).flatMap r.notes ∧
      s.2.lastNote = picked.getLast?.map w.reading := by
  induction lines using List.reverseRecOn with
  | nil => simp [feed, picks, Transcript.empty]
  | append_singleton lines line ih =>
    obtain ⟨hnotes, hlast⟩ := ih
    have hnow : (r.feed lines (w, .empty)).1.reading 0 = w.reading lines.length := reading_feed r lines _ 0
    have hg := greedy_picks r.throttle w.reading lines.length
    rw [feed_snoc, List.length_append, List.length_singleton, picks, ← hlast, ← hnow]
    generalize r.feed lines (w, .empty) = s at *
    obtain ⟨w₁, t⟩ := s
    dsimp only at hnotes hlast hnow ⊢
    rw [run_sink]
    by_cases hd : due r.throttle t.lastNote (w₁.reading 0) = true
    · simp only [if_pos hd]
      constructor
      · rw [attemptedNotes_forward, List.filterMap_append, filterMap_getElem?_snoc hg.bound]
        have hn : w₁.ticked.attemptedNotes = w₁.attemptedNotes := rfl
        simp [hn, hnotes]
      · simp [hnow]
    · simp only [if_neg hd]
      rw [filterMap_getElem?_snoc hg.bound]
      exact ⟨hnotes, hlast⟩

theorem exists_paced (r : Relay) (lines : List String) (w : Outside) :
    ∃ picked, Paced r lines w (r.feed lines (w, .empty)) picked := by
  have hg := greedy_picks r.throttle w.reading lines.length
  obtain ⟨hnotes, hlast⟩ := feed_picks r lines w
  have hlines := lines_feed r lines (w, .empty)
  exact ⟨_, hg, fun _ => hg.unique, hg.apart, fun _ => hg.between, hnotes, hlast, hlines,
    congrArg ("\n".intercalate ·) hlines, reading_feed r lines (w, .empty)⟩

/-! ## What a line meets -/

/-- What of a state a line meets and changes. -/
def view (s : Outside × Transcript) : List Float × List Reply × List Note × Transcript :=
  (s.1.clock, s.1.notifier, s.1.attemptedNotes, s.2)

theorem view_log (e : Entry) (w : Outside) (t : Transcript) :
    view (w.log e, t) =
      (w.clock, w.notifier, w.attemptedNotes ++ (match e with | .noted n | .noteRefused n => [n] | _ => []), t) := by
  rw [view, attemptedNotes_log]
  rfl

/-- What a line comes to depends on what it meets. -/
theorem sink_congr (h : view s = view s') (r : Relay) (line : String) :
    ((r.sink line).run s).1 = ((r.sink line).run s').1 ∧
      view ((r.sink line).run s).2 = view ((r.sink line).run s').2 := by
  obtain ⟨w, t⟩ := s
  obtain ⟨w', t'⟩ := s'
  simp only [view, Prod.mk.injEq] at h
  obtain ⟨hc, hn, ha, rfl⟩ := h
  have hnow : w.reading 0 = w'.reading 0 := by rw [reading, hc, reading]
  have hticked : w.ticked.clock = w'.ticked.clock := by rw [ticked, ticked, hc]
  have hn' : w.ticked.notifier = w'.ticked.notifier := hn
  have ha' : w.ticked.attemptedNotes = w'.ticked.attemptedNotes := ha
  rw [run_sink, run_sink, hnow]
  split
  · refine ⟨forward_congr hn' r line, ?_⟩
    simp only [view, clock_forward, notifier_forward, attemptedNotes_forward, hticked, hn', ha']
  · exact ⟨rfl, by simp only [view, hticked, hn', ha']⟩

theorem feed_congr (h : view s = view s') (r : Relay) (lines : List String) :
    view (r.feed lines s) = view (r.feed lines s') := by
  induction lines generalizing s s' with
  | nil => exact h
  | cons line lines ih => exact ih (sink_congr h r line).2

theorem notifier_sink (r : Relay) (line : String) (s : Outside × Transcript) :
    ((r.sink line).run s).2.1.notifier <:+ s.1.notifier := by
  obtain ⟨w, t⟩ := s
  rw [run_sink]
  split
  · dsimp only
    rw [notifier_forward]
    split
    · exact List.tail_suffix _
    · exact List.suffix_rfl
  · exact List.suffix_rfl

theorem notifier_feed (r : Relay) (lines : List String) (s : Outside × Transcript) :
    (r.feed lines s).1.notifier <:+ s.1.notifier := by
  induction lines generalizing s with
  | nil => exact List.suffix_rfl
  | cons line lines ih => exact (ih _).trans (notifier_sink r line s)

theorem Paced.of_view {w : Outside} {picked : List Nat} (hv : view s' = view s)
    (h : Paced r lines w s picked) : Paced r lines w s' picked := by
  simp only [view, Prod.mk.injEq] at hv
  obtain ⟨hc, _, ha, ht⟩ := hv
  have hreading (n : Nat) : s'.1.reading n = s.1.reading n := by rw [Outside.reading, hc, Outside.reading]
  exact ⟨h.greedy, h.unique, h.apart, h.between, ha.trans h.notes, ht ▸ h.lastNote, ht ▸ h.kept, ht ▸ h.text,
    fun n => (hreading n).trans (h.reading n)⟩

end Relay
end Intake
