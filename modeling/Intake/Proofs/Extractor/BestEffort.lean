import Intake.Proofs.Extractor.Delivery
import Intake.Proofs.Extractor.Registry
import Intake.Proofs.Extractor.Retelling

/-!
# Signs of life are passed on at best

Whether signs of life are passed on at all, and whether those that are get lost in the event log, is not to
be seen in anything else that a dispatch does.
-/
namespace Intake

open Outside

namespace Outside

/-- Nothing but the signs of life tells one outside from another: the processes and whether they were
killed, the documents and the objects delivered, and the directories made. -/
structure SameWork (w w' : Outside) : Prop where
  calls : w.calls = w'.calls
  documents : w.documents = w'.documents
  objects : w.objects = w'.objects
  directories : w.directories = w'.directories
  scratchDirectories : w.scratchDirectories = w'.scratchDirectories

theorem filterMap_plain {γ : Type} {f : Entry → Option γ} (hf : ∀ e, e.isNote = true → f e = none)
    (w : Outside) : w.plain.filterMap f = w.journal.filterMap f := by
  rw [plain, List.filterMap_filter]
  apply List.filterMap_congr
  intro e _
  cases hn : e.isNote with
  | false => rfl
  | true => exact (hf e hn).symm

theorem find?_plain {test : Entry → Bool} (ht : ∀ e, e.isNote = true → test e = false) (es : List Entry) :
    (es.filter fun e => !e.isNote).find? test = es.find? test := by
  rw [List.find?_filter]
  congr 1
  funext e
  cases hn : e.isNote with
  | false => simp
  | true => simp [ht e hn]

theorem callsOf_plain (es : List Entry) : callsOf (es.filter fun e => !e.isNote) = callsOf es := by
  induction es with
  | nil => rfl
  | cons e es ih =>
    cases e with
    | started c =>
      rw [List.filter_cons_of_pos rfl, callsOf, callsOf, ih, find?_plain]
      exact Entry.forall_of_isNote (fun _ => rfl) fun _ => rfl
    | noted n => exact ih
    | noteRefused n => exact ih
    | invoked x => exact ih
    | killed => exact ih
    | indexed d => exact ih
    | stored k p => exact ih
    | directoryMade p => exact ih
    | scratchOpened p => exact ih
    | scratchCleaned p => exact ih

theorem sameWork_of_plain {w w' : Outside} (h : w.plain = w'.plain) : SameWork w w' := by
  have hcleaned (w : Outside) (p : String) :
      w.journal.contains (.scratchCleaned p) = w.plain.contains (.scratchCleaned p) := by
    rw [Bool.eq_iff_iff, List.contains_iff_mem, List.contains_iff_mem, plain, List.mem_filter]
    simp [Entry.isNote]
  constructor
  · rw [calls, calls, ← callsOf_plain, ← callsOf_plain w'.journal]
    exact congrArg callsOf h
  · rw [documents, documents, ← filterMap_plain, ← filterMap_plain, h]
    all_goals exact Entry.forall_of_isNote (fun _ => rfl) fun _ => rfl
  · rw [objects, objects, ← filterMap_plain, ← filterMap_plain, h]
    all_goals exact Entry.forall_of_isNote (fun _ => rfl) fun _ => rfl
  · rw [directories, directories, ← filterMap_plain, ← filterMap_plain, h]
    all_goals exact Entry.forall_of_isNote (fun _ => rfl) fun _ => rfl
  · simp only [scratchDirectories, hcleaned]
    rw [← filterMap_plain, ← filterMap_plain, h]
    all_goals exact Entry.forall_of_isNote (fun _ => rfl) fun _ => rfl

theorem attemptedNotes_heard (w : Outside) : (w.retold Entry.heard).attemptedNotes = w.attemptedNotes := by
  show (w.journal.flatMap Entry.heard).filterMap _ = w.journal.filterMap _
  rw [List.filterMap_flatMap]
  induction w.journal with
  | nil => rfl
  | cons e es ih =>
    rw [List.flatMap_cons, ih]
    cases e <;> rfl

end Outside

namespace Extractor

/-- Without its signs of life, what is passed on is what happens if nothing is. -/
theorem notesMirror_unnoted (notifies : Bool) : NotesMirror Entry.unnoted notifies false := by
  intro name b line
  cases notifies with
  | false => exact .pure ()
  | true =>
    intro w hw
    obtain ⟨e, he, hr⟩ := (hw rfl).run_forward (g := noteSender name b) rfl
    rw [if_pos rfl, hr]
    refine ⟨fun _ => (hw rfl).tail e, ?_⟩
    have hnone : e.unnoted = [] := by
      rcases he with rfl | rfl
      · rfl
      · rfl
    simp [Transcript.forward, retold, Outside.log, hnone]

/-- With its refusals told as if there had been none, what is passed on is what happens if all is taken. -/
theorem notesMirror_heard (notifies : Bool) : NotesMirror Entry.heard notifies notifies := by
  intro name b line
  cases notifies with
  | false => exact .pure ()
  | true =>
    intro w hw
    obtain ⟨e, he, hr⟩ := (hw rfl).run_forward (g := noteSender name b) rfl
    rw [if_pos rfl, hr]
    refine ⟨fun _ => (hw rfl).tail e, ?_⟩
    have hone : e.heard = [.noted ⟨some (b.id, name), line⟩] := by
      rcases he with rfl | rfl
      · rfl
      · rfl
    show (Except.ok (), (w.retold Entry.heard).log _) = _
    simp [retold, Outside.log, hone]

end Extractor

namespace Dispatch

variable {σ : Type} {log : EventLog σ} {tell : Entry → List Entry} {notifies : Bool} {b : Blob}
  {path : FilePath} {p : Params}

/-- Two extractors of one name that go side by side. -/
structure Alike (tell : Entry → List Entry) (notifies : Bool) (x x' : Extractor) : Prop where
  name : x.name = x'.name
  extract : ∀ b path p, Mirrors tell notifies (x.extract b path p) (x'.extract b path p)

abbrev MirrorsBeside {α : Type} (tell : Entry → List Entry) (notifies : Bool)
    (m m' : Action (σ × Outside) α) : Prop :=
  Action.Mirrors (fun s => (s.1, s.2.retold tell)) (fun s => s.2.Tolerates notifies) m m'

theorem mirrors_record (e : Event) : MirrorsBeside tell notifies (record log e) (record log e) :=
  .beside_second _

theorem mirrors_settle (name : String) (e : Fault) :
    MirrorsBeside tell notifies (settle log b p name e) (settle log b p name e) := by
  unfold settle
  split
  · exact .bind (mirrors_record _) fun _ => .fail e
  · split
    · exact .fail e
    · split
      · exact .pure _
      · exact .fail e

theorem mirrors_attempt (ht : Retells tell) {x x' : Extractor} (hx : Alike tell notifies x x') :
    MirrorsBeside tell notifies (attempt log x b path p) (attempt log x' b path p) := by
  unfold attempt
  rw [← hx.name]
  exact .bind (mirrors_record _) fun _ => .bind (.second (mirrors_log ht rfl)) fun _ =>
    .onFault (.second (hx.extract b path p)) fun e => mirrors_settle x.name e

theorem mirrors_close (name : String) (o : Outcome Value) :
    MirrorsBeside tell notifies (close log b p name o) (close log b p name o) := by
  cases o with
  | success v => exact mirrors_record _
  | interrupted reason => exact .pure ()
  | failed f => exact mirrors_record _

theorem mirrors_runAll (ht : Retells tell) {xs xs' : List Extractor}
    (hx : List.Forall₂ (Alike tell notifies) xs xs') (r : Report) :
    MirrorsBeside tell notifies (runAll log b path p xs r) (runAll log b path p xs' r) := by
  induction hx generalizing r with
  | nil => exact .pure r
  | @cons x x' xs xs' hx _ ih =>
    unfold runAll
    rw [← hx.name]
    exact .bind (mirrors_attempt ht hx) fun o => .bind (mirrors_close x.name o) fun _ => ih _

theorem map_name_of_alike {xs xs' : List Extractor} (hx : List.Forall₂ (Alike tell notifies) xs xs') :
    xs.map Extractor.name = xs'.map Extractor.name := by
  induction hx with
  | nil => rfl
  | cons hx _ ih => rw [List.map_cons, List.map_cons, hx.name, ih]

theorem mirrors_dispatch (ht : Retells tell) {registry registry' : Registry}
    (hx : List.Forall₂ (Alike tell notifies) (registry.candidates b.mimeType b.size)
      (registry'.candidates b.mimeType b.size)) :
    MirrorsBeside tell notifies (dispatch log registry b path p) (dispatch log registry' b path p) := by
  unfold dispatch
  dsimp only
  rw [← map_name_of_alike hx]
  exact .bind (mirrors_record _) fun _ => mirrors_runAll ht hx _

end Dispatch

open Extractor Dispatch

/-- The registry of recognisers that pass signs of life on, or do not. -/
def Registry.noting (notifies : Bool) (images : Image.Setup) (documents : Pdf.Setup) : Registry :=
  .recognisers { images with notifies } { documents with notifies }

theorem alike_candidates {tell : Entry → List Entry} (ht : Retells tell) {notifies notifies' : Bool}
    (hn : NotesMirror tell notifies notifies') (images : Image.Setup) (documents : Pdf.Setup)
    (mimeType : String) (size : Int) :
    List.Forall₂ (Alike tell notifies) ((Registry.noting notifies images documents).candidates mimeType size)
      ((Registry.noting notifies' images documents).candidates mimeType size) := by
  have hi (n : Bool) : (Image.Setup.extractor { images with notifies := n }).canProcess mimeType = true ↔
      images.extractor.canProcess mimeType = true := canProcess_image.trans canProcess_image.symm
  have hd (n : Bool) : (Pdf.Setup.extractor { documents with notifies := n }).canProcess mimeType = true ↔
      documents.extractor.canProcess mimeType = true := canProcess_pdf.trans canProcess_pdf.symm
  by_cases himage : images.extractor.canProcess mimeType = true
  · have hone (n : Bool) : (Registry.noting n images documents).candidates mimeType size =
        [Image.Setup.extractor { images with notifies := n }] :=
      candidates_image ((hi n).mpr himage) _ size
    rw [hone, hone]
    exact .cons ⟨rfl, Image.mirrors_extract ht hn images⟩ .nil
  · by_cases hpdf : documents.extractor.canProcess mimeType = true
    · have hone (n : Bool) : (Registry.noting n images documents).candidates mimeType size =
          [Pdf.Setup.extractor { documents with notifies := n }] :=
        candidates_pdf ((hd n).mpr hpdf) _ size
      rw [hone, hone]
      exact .cons ⟨rfl, Pdf.mirrors_extract ht hn documents⟩ .nil
    · have hnone (n : Bool) : (Registry.noting n images documents).candidates mimeType size = [] := by
        apply List.eq_nil_iff_forall_not_mem.mpr
        intro x hx
        rw [Registry.mem_candidates] at hx
        obtain ⟨hx, hc⟩ := hx
        rcases List.mem_cons.mp hx with rfl | hx
        · exact himage ((hi n).mp hc)
        · obtain rfl := List.mem_singleton.mp hx
          exact hpdf ((hd n).mp hc)
      rw [hnone, hnone]
      exact .nil

/-- Signs of life are passed on at best. Two dispatches to recognisers, one of which may pass signs of life
on while the other does not, or both of which do but have them refused at different times, end in the same
way, tell the log the same, and differ in nothing else outside. If both pass signs of life on, they try to
pass on the same ones. -/
theorem dispatch_best_effort {σ : Type} (log : EventLog σ) (images : Image.Setup) (documents : Pdf.Setup)
    (b : Blob) (path : FilePath) (p : Params) (s : σ) (w : Outside) {notifies notifies' : Bool}
    {replies replies' : List Reply} (h : Tolerates notifies { w with notifier := replies })
    (h' : Tolerates notifies' { w with notifier := replies' }) :
    let run (notifies : Bool) (replies : List Reply) :=
      (dispatch log (.noting notifies images documents) b path p).run (s, { w with notifier := replies })
    let final := run notifies replies
    let final' := run notifies' replies'
    final.1 = final'.1 ∧ final.2.1 = final'.2.1 ∧ SameWork final.2.2 final'.2.2 ∧
      (notifies = notifies' → final.2.2.attemptedNotes = final'.2.2.attemptedNotes) := by
  intro run final final'
  have hquiet {n : Bool} {rs : List Reply} (ht : Tolerates n { w with notifier := rs }) :
      (dispatch log (.noting false images documents) b path p).run (s, w.retold Entry.unnoted) =
        ((run n rs).1, (run n rs).2.1, (run n rs).2.2.retold Entry.unnoted) :=
    (mirrors_dispatch retells_unnoted (alike_candidates retells_unnoted (notesMirror_unnoted n) images
      documents b.mimeType b.size) (s, { w with notifier := rs }) ht).2
  have hheard {n : Bool} {rs : List Reply} (ht : Tolerates n { w with notifier := rs }) :
      (dispatch log (.noting n images documents) b path p).run (s, w.retold Entry.heard) =
        ((run n rs).1, (run n rs).2.1, (run n rs).2.2.retold Entry.heard) :=
    (mirrors_dispatch retells_heard (alike_candidates retells_heard (notesMirror_heard n) images documents
      b.mimeType b.size) (s, { w with notifier := rs }) ht).2
  obtain ⟨hr, hs⟩ := Prod.mk.inj ((hquiet h).symm.trans (hquiet h'))
  obtain ⟨hs, hw⟩ := Prod.mk.inj hs
  refine ⟨hr, hs, ?_, ?_⟩
  · apply sameWork_of_plain
    rw [← plain_retold retells_unnoted, hw, plain_retold retells_unnoted]
  · rintro rfl
    obtain ⟨-, hn⟩ := Prod.mk.inj ((hheard h).symm.trans (hheard h'))
    rw [← attemptedNotes_heard, (Prod.mk.inj hn).2, attemptedNotes_heard]

theorem dispatch_best_effort_of_refusal :
    let b : Blob := ⟨"b", "image/png", 1, by decide⟩
    let p : Params := ⟨"i", ["eng"], none, none⟩
    let tool : ToolRun := ⟨0, [], "page 1\n".toUTF8.toList, none, none⟩
    let run (notifies : Bool) (replies : List Reply) :=
      (dispatch Store.log (.noting notifies (.standard false) (.standard false)) b (.ofString "/f") p).run
        (.empty (.still 0), { Outside.calm with runs := [tool], notifier := replies })
    let refused := run true [.fails (.raised .storageWrite "down")]
    refused.1 = (run false []).1 ∧ refused.2.2.documents = (run false []).2.2.documents ∧
      refused.2.2.attemptedNotes = (run true []).2.2.attemptedNotes := by
  intro b p tool run refused
  have ht : Tolerates true { Outside.calm with
      runs := [tool], notifier := [.fails (.raised .storageWrite "down")] } := by
    intro _ e he
    cases List.mem_singleton.mp he
    rfl
  have hsilent : Tolerates false { Outside.calm with runs := [tool], notifier := [] } := nofun
  have htaken : Tolerates true { Outside.calm with runs := [tool], notifier := [] } := fun _ => nofun
  obtain ⟨hr, -, hw, -⟩ := dispatch_best_effort Store.log (.standard false) (.standard false) b
    (.ofString "/f") p (.empty (.still 0)) { Outside.calm with runs := [tool] } ht hsilent
  obtain ⟨-, -, -, hn⟩ := dispatch_best_effort Store.log (.standard false) (.standard false) b
    (.ofString "/f") p (.empty (.still 0)) { Outside.calm with runs := [tool] } ht htaken
  exact ⟨hr, hw.documents, hn rfl⟩

end Intake
