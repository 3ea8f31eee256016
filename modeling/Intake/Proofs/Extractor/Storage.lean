import Intake.Proofs.Extractor.Scratch

/-!
# What the object storage holds

The key of a copy tells its blob and its language, if there is no slash in the id of the blob. So whatever is
extracted, what the object storage holds under such a key is the copy that was made for them last.
-/
namespace Intake

theorem Outside.objects_eq (w : Outside) :
    w.objects = w.scratchwork.filterMap fun | .stored key path => some (key, path) | _ => none := by
  rw [scratchwork, List.filterMap_filter, objects]
  apply List.filterMap_congr
  intro e _
  cases e <;> simp [tellsOfScratch]

namespace Extractor.Pdf

theorem objectKey_eq_iff {b b' : String} (hb : '/' ∉ b.toList) (hb' : '/' ∉ b'.toList) (l l' : String) :
    objectKey b l = objectKey b' l' ↔ b = b' ∧ l = l' := by
  refine ⟨fun h => ?_, fun ⟨hb, hl⟩ => by rw [hb, hl]⟩
  rw [objectKey, objectKey, String.append_left_inj] at h
  have h := congrArg String.toList h
  simp only [String.toList_append, List.append_assoc] at h
  obtain ⟨hl, hb⟩ := Lists.append_separator_inj hb hb' (List.append_cancel_left h)
  exact ⟨String.toList_inj.mp hb, String.toList_inj.mp hl⟩

-- With a slash in an id there would be two blobs for one key.
example : objectKey "c" "a/b" = objectKey "b/c" "a" := by decide

/-- What an object storage holds after some puts, each of which takes the place of what was under its key. -/
def held (puts : List (String × FilePath)) : String → Option FilePath :=
  puts.foldl (fun now p => Function.update now p.1 (some p.2)) fun _ => none

/-- What is held under a key is what was put there last. -/
theorem held_eq_getLast? (puts : List (String × FilePath)) (key : String) :
    held puts key = (puts.filterMap fun p => if p.1 = key then some p.2 else none).getLast? := by
  induction puts using List.reverseRecOn with
  | nil => rfl
  | append_singleton puts p ih =>
    rw [held, List.foldl_append, ← held, List.foldl_cons, List.foldl_nil, List.filterMap_append]
    by_cases h : p.1 = key
    · subst h
      simp
    · simp [h, Function.update_of_ne (Ne.symm h), ih]

namespace Attempt

/-- The copy that was made at an attempt, if the object storage took it. -/
def copy? (a : Attempt) : Option FilePath :=
  match a.made, a.put with
  | .ok (.success output), some (.ok ()) => some output
  | _, _ => none

def copyIn? (language : String) (a : Attempt) : Option FilePath := if a.language = language then a.copy? else none

/-- What an attempt puts into the object storage. -/
def puts (b : Blob) (a : Attempt) : List (String × FilePath) :=
  a.copy?.toList.map fun output => (objectKey b.id a.language, output)

theorem copy?_eq_some_iff {a : Attempt} {path : FilePath} :
    a.copy? = some path ↔ a.made = .ok (.success path) ∧ a.put = some (.ok ()) := by
  unfold copy?
  split
  · rename_i hm hp
    simp [hm, hp]
  · rename_i hn
    simpa using fun hm hp => hn path hm hp

theorem filterMap_entries (b : Blob) (a : Attempt) :
    ((a.entries b).filterMap fun | .stored key path => some (key, path) | _ => none) = a.puts b := by
  obtain ⟨language, directory, made, put⟩ := a
  rcases made with e | output | reason | failure
  · rfl
  · rcases put with _ | e | u
    all_goals rfl
  · rfl
  · rfl

theorem filterMap_puts {b : Blob} {id : String} (hb : '/' ∉ b.id.toList) (hid : '/' ∉ id.toList)
    (language : String) (a : Attempt) :
    ((a.puts b).filterMap fun p => if p.1 = objectKey id language then some p.2 else none) =
      if b.id = id then (a.copyIn? language).toList else [] := by
  rw [puts, copyIn?]
  simp only [List.filterMap_map, Function.comp_def, objectKey_eq_iff hb hid]
  cases a.copy? with
  | none => simp
  | some output =>
    by_cases h : b.id = id
    · by_cases hl : a.language = language
      · simp [h, hl]
      · simp [h, hl]
    · simp [h]

end Attempt

theorem Attempts.exists_attempted {s : Setup} {b : Blob} {document : FilePath} {p : Params}
    {languages : List String} {st st' : Outside × Transcript} {as : List Attempt}
    {r : Except Fault (Outcome Value)} (h : Attempts s b document p languages st as r st') :
    ∀ a ∈ as, ∃ st₀ st₁, Attempted s b document p st₀ a.language a st₁ := by
  induction h with
  | done st => exact List.forall_mem_nil _
  | next h hp hr ih => exact List.forall_mem_cons.mpr ⟨⟨_, _, h.language_eq ▸ h⟩, ih⟩
  | stop h he => exact List.forall_mem_singleton.mpr ⟨_, _, h.language_eq ▸ h⟩

/-- A document of which copies are to be made, how the extractor works, and the outside that it meets. -/
structure Extraction where
  setup : Setup
  blob : Blob
  document : FilePath
  params : Params
  outside : Outside

namespace Extraction

def run (x : Extraction) : Except Fault (Outcome Value) × Outside :=
  (x.setup.extract x.blob x.document x.params).run x.outside

/-- What an extraction puts into the object storage, in order. -/
def puts (x : Extraction) : List (String × FilePath) := x.run.2.objects.drop x.outside.objects.length

/-- The attempts that an extraction makes. Asked for no language, it makes none. -/
def Tries (x : Extraction) (as : List Attempt) : Prop :=
  x.params.languages = [] ∧ as = [] ∨
    ∃ t, Attempts x.setup x.blob x.document x.params x.params.languages
      (x.outside.log (.directoryMade x.setup.scratchRoot), .empty) as x.run.1 (x.run.2, t)

/-- The copies of a blob in a language that were made by some extractions and taken by the object storage, in
order. -/
def copiesOf (tried : Extraction → List Attempt) (xs : List Extraction) (id language : String) : List FilePath :=
  xs.flatMap fun x => if x.blob.id = id then (tried x).filterMap (Attempt.copyIn? language) else []

theorem mem_copiesOf {tried : Extraction → List Attempt} {xs : List Extraction} {id language : String}
    {path : FilePath} :
    path ∈ copiesOf tried xs id language ↔
      ∃ x ∈ xs, ∃ a ∈ tried x, x.blob.id = id ∧ a.language = language ∧ a.copy? = some path := by
  have hcopy (a : Attempt) : a.copyIn? language = some path ↔ a.language = language ∧ a.copy? = some path := by
    rw [Attempt.copyIn?, Option.ite_none_right_eq_some]
  rw [copiesOf, List.mem_flatMap]
  refine exists_congr fun x => and_congr_right fun _ => ?_
  by_cases hb : x.blob.id = id
  · simp [hb, hcopy]
  · simp [hb]

variable {x : Extraction} {as : List Attempt}

theorem exists_tries (x : Extraction) : ∃ as, x.Tries as := by
  by_cases hl : x.params.languages = []
  · exact ⟨[], .inl ⟨hl, rfl⟩⟩
  · let st : Outside × Transcript := (x.outside.log (.directoryMade x.setup.scratchRoot), .empty)
    let final := (x.setup.languages x.blob x.document x.params x.params.languages).run st
    have hrun : x.run = (final.1, final.2.1) := run_extract hl x.setup x.blob x.document x.outside
    obtain ⟨as, h⟩ := languages_attempts x.setup x.blob x.document x.params x.params.languages st
    refine ⟨as, .inr ⟨final.2.2, ?_⟩⟩
    rw [hrun]
    exact h

theorem Tries.objects_eq (h : x.Tries as) :
    x.run.2.objects = x.outside.objects ++ as.flatMap (Attempt.puts x.blob) := by
  obtain ⟨hl, rfl⟩ | ⟨t, h⟩ := h
  · have hrun : x.run.2 = x.outside := by
      simp only [run, Setup.extract, hl]
      rfl
    rw [hrun, List.flatMap_nil, List.append_nil]
  · have hw : (x.outside.log (.directoryMade x.setup.scratchRoot)).scratchwork = x.outside.scratchwork := by
      rw [Outside.scratchwork_log]
      exact List.append_nil _
    rw [Outside.objects_eq, h.scratchwork_eq, hw, List.filterMap_append, ← Outside.objects_eq, List.filterMap_flatMap]
    simp only [Attempt.filterMap_entries]

theorem Tries.puts_eq (h : x.Tries as) : x.puts = as.flatMap (Attempt.puts x.blob) := by
  rw [puts, h.objects_eq, List.drop_left]

theorem Tries.filterMap_puts (h : x.Tries as) (hx : '/' ∉ x.blob.id.toList) {id : String} (hid : '/' ∉ id.toList)
    (language : String) :
    (x.puts.filterMap fun p => if p.1 = objectKey id language then some p.2 else none) =
      if x.blob.id = id then as.filterMap (Attempt.copyIn? language) else [] := by
  rw [h.puts_eq, List.filterMap_flatMap]
  simp only [Attempt.filterMap_puts hx hid]
  by_cases hb : x.blob.id = id
  · simp only [if_pos hb, List.filterMap_eq_flatMap_toList]
  · simp [hb]

theorem Tries.exists_attempted (h : x.Tries as) :
    ∀ a ∈ as, ∃ st st', Attempted x.setup x.blob x.document x.params st a.language a st' := by
  obtain ⟨-, rfl⟩ | ⟨t, h⟩ := h
  · exact List.forall_mem_nil _
  · exact h.exists_attempted

/-- The key of a copy tells its blob from others and its language from others, if there is no slash in the ids of
blobs. So whatever copies are made in some extractions, each of which may meet any outside, the object storage holds
of each blob in each language the copy that was made for them last. -/
theorem extractions_keep_apart {xs : List Extraction} (hxs : ∀ x ∈ xs, '/' ∉ x.blob.id.toList) :
    (∀ id id' language language' : String, '/' ∉ id.toList → '/' ∉ id'.toList →
      (objectKey id language = objectKey id' language' ↔ id = id' ∧ language = language')) ∧
    ∃ tried : Extraction → List Attempt, (∀ x ∈ xs, x.Tries (tried x)) ∧
      ∀ id language : String, '/' ∉ id.toList →
        held (xs.flatMap puts) (objectKey id language) = (copiesOf tried xs id language).getLast? ∧
          ∀ path ∈ copiesOf tried xs id language, ∃ x ∈ xs, ∃ a ∈ tried x, ∃ st st', x.blob.id = id ∧
            Attempted x.setup x.blob x.document x.params st language a st' ∧
            a.made = .ok (.success path) ∧ a.put = some (.ok ()) := by
  refine ⟨fun id id' language language' hid hid' => objectKey_eq_iff hid hid' language language', ?_⟩
  choose tried htried using exists_tries
  refine ⟨tried, fun x _ => htried x, fun id language hid => ⟨?_, ?_⟩⟩
  · rw [held_eq_getLast?, List.filterMap_flatMap, copiesOf]
    congr 1
    apply List.flatMap_congr
    intro x hx
    exact (htried x).filterMap_puts (hxs x hx) hid language
  · intro path hpath
    obtain ⟨x, hx, a, ha, hid, hl, hcopy⟩ := mem_copiesOf.mp hpath
    obtain ⟨hmade, hput⟩ := Attempt.copy?_eq_some_iff.mp hcopy
    obtain ⟨st, st', hat⟩ := (htried x).exists_attempted a ha
    exact ⟨x, hx, a, ha, st, st', hid, hl ▸ hat, hmade, hput⟩

/-- A language with a slash in it, a blob that is named like its end, and a later copy that is refused. -/
theorem extractions_keep_apart_of_refusal :
    let b : Blob := ⟨"b", "application/pdf", 1, by decide⟩
    let latin : Blob := ⟨"Latin", "application/pdf", 1, by decide⟩
    let s := Setup.standard false
    let xs : List Extraction :=
      [⟨s, b, .ofString "/in/1", ⟨"i", ["script/Latin", "eng"], none, none⟩, .calm⟩,
        ⟨s, latin, .ofString "/in/2", ⟨"i", ["script"], none, none⟩, .calm⟩,
        ⟨s, b, .ofString "/in/3", ⟨"i", ["script/Latin"], none, none⟩,
          { Outside.calm with storage := [.fails (.raised .os "full")] }⟩]
    let path := FilePath.ofString "/scratch/tmp0/1.ocr.pdf"
    (∀ x ∈ xs, '/' ∉ x.blob.id.toList) ∧
      held (xs.flatMap puts) (objectKey "b" "script/Latin") = some path ∧
      ∃ x ∈ xs, ∃ a st st', x.blob.id = "b" ∧
        Attempted x.setup x.blob x.document x.params st "script/Latin" a st' ∧
        a.made = .ok (.success path) ∧ a.put = some (.ok ()) := by
  intro b latin s xs path
  have hxs : ∀ x ∈ xs, '/' ∉ x.blob.id.toList := by
    simp only [xs, List.forall_mem_cons]
    exact ⟨by decide, by decide, by decide, List.forall_mem_nil _⟩
  obtain ⟨-, tried, -, happly⟩ := extractions_keep_apart hxs
  obtain ⟨hheld, hown⟩ := happly "b" "script/Latin" (by decide)
  have hpath : held (xs.flatMap puts) (objectKey "b" "script/Latin") = some path := by decide +kernel
  obtain ⟨x, hx, a, -, st, st', ha⟩ := hown path (List.mem_of_getLast? (hheld.symm.trans hpath))
  exact ⟨hxs, hpath, x, hx, a, st, st', ha⟩

end Extraction

end Extractor.Pdf
end Intake
