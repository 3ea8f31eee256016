import Intake.Fault

/-! # Blobs -/
namespace Intake

/-- An uploaded content item. -/
structure Blob where
  id : String
  mimeType : String
  size : Nat
  id_ne_empty : id ≠ ""
  deriving DecidableEq

/-- The blob of an id, a media type and a size, which must make sense. -/
def Blob.make (id mimeType : String) (size : Int) : Except Fault Blob :=
  if h : id = "" then .error .emptyBlobId
  else if size < 0 then .error (.negativeSize size)
  else .ok ⟨id, mimeType, size.toNat, h⟩

theorem Blob.make_ok_iff {id mimeType : String} {size : Int} {b : Blob} :
    make id mimeType size = .ok b ↔ b.id = id ∧ b.mimeType = mimeType ∧ (b.size : Int) = size := by
  obtain ⟨i, m, s, hi⟩ := b
  unfold make
  by_cases h : id = ""
  · simp only [h, reduceDIte]
    exact ⟨nofun, fun e => absurd e.1 hi⟩
  · by_cases hs : size < 0
    · simp only [h, hs, reduceDIte, if_true]
      exact ⟨nofun, fun e => by omega⟩
    · simp only [h, hs, reduceDIte, if_false, Except.ok.injEq, Blob.mk.injEq]
      constructor
      · rintro ⟨rfl, rfl, rfl⟩
        exact ⟨rfl, rfl, by omega⟩
      · rintro ⟨rfl, rfl, rfl⟩
        exact ⟨rfl, rfl, by omega⟩

/-- What an ingestion asks of every extractor. Languages are the codes the recogniser knows. -/
structure Params where
  ingestId : String
  languages : List String
  workspace : Option String
  dpi : Option Int
  deriving DecidableEq, Repr, Inhabited

end Intake
