import Intake.Blob
import Intake.Outside

/-!
# Extractors and their registry

An extractor says what it can process and at what cost, and does it. A registry holds extractors of
different names and puts the ones that fit a blob in order.
-/
namespace Intake

/-- A way to get something out of a blob. -/
structure Extractor where
  name : String
  /-- Among candidates of one cost the lower one comes first. -/
  priority : Int
  /-- Whether it contributes to the search index. -/
  indexing : Bool
  mimeTypes : List String
  /-- The cost for a media type and a size. -/
  cost : String → Int → Int
  extract : Blob → FilePath → Params → Action Outside (Outcome Value)

namespace Extractor

def canProcess (e : Extractor) (mimeType : String) : Bool := e.mimeTypes.contains mimeType

/-- Whether one candidate for a media type and a size may come before another: by cost, then by priority,
then by name. -/
def before (mimeType : String) (size : Int) (d e : Extractor) : Bool :=
  let c := d.cost mimeType size
  let c' := e.cost mimeType size
  decide (c < c' ∨ (c = c' ∧ (d.priority < e.priority ∨ (d.priority = e.priority ∧ d.name ≤ e.name))))

/-- Sends signs of life about one blob in the name of an extractor. -/
def noteSender (name : String) (b : Blob) (text : String) : Action Outside Unit :=
  Outside.sendNote ⟨some (b.id, name), text⟩

/-- An extractor that does its work elsewhere and answers with an outcome. -/
def elsewhere (name : String) (mimeTypes : List String) (cost perByte priority : Int) : Extractor where
  name := name
  priority := priority
  indexing := false
  mimeTypes := mimeTypes
  cost := fun _ size => cost + perByte * size
  extract := fun _ _ _ => Outside.nextResult name

end Extractor

/-- Extractors, in the order in which they were registered, no two of one name. -/
structure Registry where
  extractors : List Extractor
  nodup : (extractors.map Extractor.name).Nodup

namespace Registry

def empty : Registry := ⟨[], List.nodup_nil⟩

/-- Adds an extractor, if its name is free. -/
def register (r : Registry) (e : Extractor) : Except Fault Registry :=
  if h : e.name ∈ r.extractors.map Extractor.name then .error (.duplicateExtractor e.name)
  else .ok ⟨r.extractors ++ [e], by
    rw [List.map_append, List.nodup_append]
    refine ⟨r.nodup, by simp, fun a ha b hb hab => h ?_⟩
    rw [List.map_singleton, List.mem_singleton] at hb
    exact hb ▸ hab ▸ ha⟩

/-- The extractors that can process a media type, the cheapest first. -/
def candidates (r : Registry) (mimeType : String) (size : Int) : List Extractor :=
  (r.extractors.filter fun e => e.canProcess mimeType).mergeSort (Extractor.before mimeType size)

theorem candidates_perm (r : Registry) (mimeType : String) (size : Int) :
    (r.candidates mimeType size).Perm (r.extractors.filter fun e => e.canProcess mimeType) :=
  List.mergeSort_perm _ _

theorem register_eq_error_iff (r : Registry) (e : Extractor) (f : Fault) :
    r.register e = .error f ↔ e.name ∈ r.extractors.map Extractor.name ∧ f = .duplicateExtractor e.name := by
  unfold register
  split <;> rename_i h
  · simp [h, eq_comm]
  · exact ⟨nofun, fun e => absurd e.1 h⟩

end Registry

end Intake
