import Intake.Proofs.Dispatch.Solo
import Intake.Proofs.Extractor.Image
import Intake.Proofs.Extractor.Pdf
import Intake.Service

/-!
# Successes are true

A dispatcher for images and documents, with a log that takes every write, stores the success of an extractor
just when everything that was asked for has been delivered.
-/
namespace Intake

open Dispatch Extractor

def Registry.recognisers (images : Image.Setup) (documents : Pdf.Setup) : Registry where
  extractors := [images.extractor, documents.extractor]
  nodup := by
    rw [List.map_cons, List.map_singleton, List.nodup_cons, List.mem_singleton]
    exact ⟨show Image.name ≠ Pdf.name by decide, by simp⟩

/-- This is the registry that a service builds. -/
theorem Service.run_build (notifies ownRecorder : Bool) (s : Service) :
    (build notifies ownRecorder).run s = (.ok (), { s with
      registry := .recognisers (.standard notifies) (.standard notifies)
      recorder := if ownRecorder then s.direct else s.chosen }) := rfl

theorem canProcess_image {images : Image.Setup} {mimeType : String} :
    images.extractor.canProcess mimeType = true ↔
      mimeType = "image/jpeg" ∨ mimeType = "image/png" ∨ mimeType = "image/tiff" := by
  rw [canProcess, List.contains_iff_mem]
  simp [Image.Setup.extractor]

theorem canProcess_pdf {documents : Pdf.Setup} {mimeType : String} :
    documents.extractor.canProcess mimeType = true ↔ mimeType = "application/pdf" := by
  rw [canProcess, List.contains_iff_mem]
  simp [Pdf.Setup.extractor]

theorem candidates_image {images : Image.Setup} {mimeType : String}
    (h : images.extractor.canProcess mimeType = true) (documents : Pdf.Setup) (size : Int) :
    (Registry.recognisers images documents).candidates mimeType size = [images.extractor] := by
  have hd : ¬documents.extractor.canProcess mimeType = true := by
    rw [canProcess_pdf]
    rcases canProcess_image.mp h with rfl | rfl | rfl <;> decide
  have hf : [images.extractor, documents.extractor].filter (·.canProcess mimeType) = [images.extractor] := by
    simp [h, hd]
  rw [Registry.candidates, Registry.recognisers, hf]
  exact List.mergeSort_singleton _

theorem candidates_pdf {documents : Pdf.Setup} {mimeType : String}
    (h : documents.extractor.canProcess mimeType = true) (images : Image.Setup) (size : Int) :
    (Registry.recognisers images documents).candidates mimeType size = [documents.extractor] := by
  have hi : ¬images.extractor.canProcess mimeType = true := by
    rw [canProcess_image, canProcess_pdf.mp h]
    decide
  have hf : [images.extractor, documents.extractor].filter (·.canProcess mimeType) = [documents.extractor] := by
    simp [h, hi]
  rw [Registry.candidates, Registry.recognisers, hf]
  exact List.mergeSort_singleton _

/-- Among new rows a success stands just when something was asked for and all that there was to deliver came
after what was there before. Without it, what was asked for was delivered in part. -/
structure Truthful {δ : Type} (success : Event) (rows : List EventRow) (asked : List String)
    (before after things : List δ) : Prop where
  complete : success ∈ rows.map EventRow.written ↔ asked ≠ [] ∧ after = before ++ things
  incomplete : asked ≠ [] → success ∉ rows.map EventRow.written →
    ∃ n < asked.length, after = before ++ things.take n

theorem truthful_of_progress {δ : Type} {success : Event} {rows : List EventRow} {asked : List String}
    {before after things : List δ} {r : Except Fault (Outcome Value)} {n : Nat}
    (hs : success ∈ rows.map EventRow.written ↔ ∃ v, r = .ok (.success v)) (ha : asked ≠ [])
    (hl : things.length = asked.length) (h : Progress before after things r n) :
    Truthful success rows asked before after things := by
  constructor
  · rw [hs, h.success_iff]
    exact ⟨fun hd => ⟨ha, hd⟩, fun hd => hd.2⟩
  · intro _ hn
    refine ⟨n, ?_, h.delivered⟩
    rw [← hl]
    exact h.lt_of_not_success fun hr => hn (hs.mpr hr)

theorem truthful_of_none {δ : Type} {success : Event} {rows : List EventRow} {asked : List String}
    {before after things : List δ} {r : Except Fault (Outcome Value)}
    (hs : success ∈ rows.map EventRow.written ↔ ∃ v, r = .ok (.success v)) (ha : asked = [])
    (hr : ¬∃ v, r = .ok (.success v)) : Truthful success rows asked before after things := by
  constructor
  · rw [hs]
    exact ⟨fun h => absurd h hr, fun h => absurd ha h.1⟩
  · exact fun h => absurd ha h

section

variable (images : Image.Setup) (documents : Pdf.Setup) {b : Blob} (path : FilePath) (p : Params)
  {s : Store} (hs : s.IsWritable) (w : Outside)
include hs

theorem truthful_image (hb : images.extractor.canProcess b.mimeType = true) {rows : List EventRow} :
    let final := (dispatch Store.log (.recognisers images documents) b path p).run (s, w)
    final.2.1.events = s.events ++ rows →
      Truthful (ran b p Image.name .success []) rows p.languages w.documents final.2.2.documents
          (Image.readings b w.runs p.languages) ∧
        ∃ m, final.2.2.started = w.started ++ (Image.calls images path w p.languages).take m ∧
          final.2.2.documents.length ≤ w.documents.length + m := by
  intro final hrows
  obtain ⟨rows', r, he, hr, hsucc⟩ := dispatch_solo (candidates_image hb documents b.size) path p hs w
  obtain rfl := List.append_cancel_left (hrows.symm.trans he)
  have hx : (images.extract b path p).run (w.log (.invoked Image.name)) = (r, final.2.2) := hr
  have hd : (w.log (.invoked Image.name)).documents = w.documents := by
    rw [Outside.documents_log, List.append_nil]
  have hc : (w.log (.invoked Image.name)).started = w.started := by
    rw [Outside.started_log, List.append_nil]
  obtain ⟨hl, hn, hw⟩ | ⟨hl, n, hp, m, hm, hst⟩ :=
    Image.extract_delivered images b path p (w.log (.invoked Image.name))
  · rw [hx] at hn hw
    refine ⟨truthful_of_none hsucc hl hn, 0, ?_, ?_⟩
    · rw [show final.2.2 = _ from hw, hc, List.take_zero, List.append_nil]
    · rw [show final.2.2 = _ from hw, hd]
      exact Nat.le_refl _
  · rw [hx, hd] at hp
    rw [hx, hc] at hst
    refine ⟨truthful_of_progress hsucc hl List.length_mapIdx hp, m, hst, ?_⟩
    rw [show final.2.2.documents = _ from hp.delivered, List.length_append]
    exact Nat.add_le_add_left (Nat.le_trans (List.length_take_le ..) hm) _

theorem truthful_pdf (hb : documents.extractor.canProcess b.mimeType = true) {rows : List EventRow} :
    let final := (dispatch Store.log (.recognisers images documents) b path p).run (s, w)
    final.2.1.events = s.events ++ rows →
      Truthful (ran b p Pdf.name .success []) rows p.languages w.objects final.2.2.objects
        (Pdf.copies documents b path p w.scratchCount p.languages) := by
  intro final hrows
  obtain ⟨rows', r, he, hr, hsucc⟩ := dispatch_solo (candidates_pdf hb images b.size) path p hs w
  obtain rfl := List.append_cancel_left (hrows.symm.trans he)
  have hx : (documents.extract b path p).run (w.log (.invoked Pdf.name)) = (r, final.2.2) := hr
  have hv : Pdf.view (w.log (.invoked Pdf.name)) = Pdf.view w := by
    rw [Pdf.view_log, List.append_nil]
    rfl
  obtain ⟨ho, hc⟩ := Prod.mk.inj hv
  obtain ⟨hl, hn⟩ | ⟨hl, n, hp⟩ := Pdf.extract_delivered documents b path p (w.log (.invoked Pdf.name))
  · rw [hx] at hn
    exact truthful_of_none hsucc hl hn
  · rw [hx, ho, hc] at hp
    exact truthful_of_progress hsucc hl List.length_mapIdx hp

end

/-- A success never lies. Whatever the tools, the search index, the object storage and the notifier do, the
rows of a dispatch have the success of the extractor for images just when languages were asked for and the
search index took the reading of each, in order, and nothing else; and that of the extractor for documents
just when the object storage took the copy for each. Without a success only the first of them were delivered,
and not all. -/
theorem dispatch_truthful (images : Image.Setup) (documents : Pdf.Setup) (b : Blob) (path : FilePath)
    (p : Params) {s : Store} (hs : s.IsWritable) (w : Outside) :
    ∃ rows final, (dispatch Store.log (.recognisers images documents) b path p).run (s, w) = final ∧
      final.2.1.events = s.events ++ rows ∧
      (images.extractor.canProcess b.mimeType = true →
        Truthful (ran b p Image.name .success []) rows p.languages w.documents final.2.2.documents
            (Image.readings b w.runs p.languages) ∧
          ∃ m, final.2.2.started = w.started ++ (Image.calls images path w p.languages).take m ∧
            final.2.2.documents.length ≤ w.documents.length + m) ∧
      (documents.extractor.canProcess b.mimeType = true →
        Truthful (ran b p Pdf.name .success []) rows p.languages w.objects final.2.2.objects
          (Pdf.copies documents b path p w.scratchCount p.languages)) := by
  obtain ⟨ds, hp, hc⟩ := dispatch_course Store.log (.recognisers images documents) b path p (s, w)
  obtain ⟨-, rows, he, -⟩ := hp.rows hc.fresh
  refine ⟨rows, _, rfl, he, ?_, ?_⟩
  · intro hb
    exact truthful_image images documents path p hs w hb he
  · intro hb
    exact truthful_pdf images documents path p hs w hb he

/-- An index that fails at the second of three languages has the first reading, and no success is stored. -/
theorem dispatch_truthful_of_failing_index :
    let b : Blob := ⟨"b", "image/png", 1, by decide⟩
    let p : Params := ⟨"i", ["eng", "deu", "fra"], none, none⟩
    let w : Outside := { Outside.calm with
      runs := [⟨0, "page\n".toUTF8.toList, [], none, none⟩, ⟨0, "Seite\n".toUTF8.toList, [], none, none⟩]
      index := [.done, .fails (.raised .runtime "down")] }
    let final := (dispatch Store.log (.recognisers (.standard false) (.standard false)) b (.ofString "/f") p).run
      (.empty (.still 0), w)
    ∃ rows, final.2.1.events = rows ∧ final.2.2.documents = [⟨"b", some "page\n", "eng"⟩] ∧
      ran b p Image.name .success [] ∉ rows.map EventRow.written ∧
      ∃ n < p.languages.length, final.2.2.documents = (Image.readings b w.runs p.languages).take n := by
  intro b p w final
  obtain ⟨rows, _, rfl, he, hi, -⟩ := dispatch_truthful (.standard false) (.standard false) b
    (.ofString "/f") p (s := .empty (.still 0)) ⟨rfl, rfl⟩ w
  have ht := (hi rfl).1
  have hd : final.2.2.documents = [⟨"b", some "page\n", "eng"⟩] := by decide +kernel
  have hn : ran b p Image.name .success [] ∉ rows.map EventRow.written := by
    intro hs
    have hall := congrArg List.length (hd.symm.trans (ht.complete.mp hs).2)
    cases hall
  exact ⟨rows, he, hd, hn, ht.incomplete (by decide) hn⟩

end Intake
