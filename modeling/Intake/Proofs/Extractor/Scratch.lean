import Intake.Proofs.Extractor.Pdf
import Intake.Proofs.Lists
import Intake.Proofs.Overlay.Copies
import Mathlib

/-!
# Temporary directories

Each language that is attempted has a temporary directory of its own. Its copy is made there and stored from
there, and the directory goes before the next one comes, however the attempt ends.
-/
namespace Intake

namespace Outside

/-- Whether an entry is about temporary directories or the object storage. -/
def tellsOfScratch : Entry → Bool
  | .stored .. | .scratchOpened _ | .scratchCleaned _ => true
  | _ => false

/-- What happened to temporary directories and to the object storage. -/
def scratchwork (w : Outside) : List Entry := w.journal.filter tellsOfScratch

theorem scratchwork_log (e : Entry) (w : Outside) :
    (w.log e).scratchwork = w.scratchwork ++ [e].filter tellsOfScratch :=
  List.filter_append _ _

theorem scratchCount_eq (w : Outside) :
    w.scratchCount = w.scratchwork.countP fun | .scratchOpened _ => true | _ => false := by
  rw [scratchwork, List.countP_filter, scratchCount]
  apply List.countP_congr
  intro e _
  cases e <;> simp [tellsOfScratch]

theorem blind_scratchwork : Blind scratchwork where
  polls _ _ := rfl
  clock _ _ := rfl
  notifier _ _ := rfl
  noted w n := by rw [scratchwork_log]; exact List.append_nil _
  noteRefused w n := by rw [scratchwork_log]; exact List.append_nil _
  killed w := by rw [scratchwork_log]; exact List.append_nil _

theorem scratchwork_begun (c : Command) (w : Outside) : (c.begun w).scratchwork = w.scratchwork := by
  rw [Command.begun, scratchwork_log]
  exact List.append_nil _

theorem scratchwork_putObject {key : String} {path : FilePath} {w w' : Outside} {r : Except Fault Unit}
    (h : (putObject key path).run w = (r, w')) :
    w'.scratchwork = w.scratchwork ++ match r with | .ok () => [.stored key path] | .error _ => [] := by
  obtain h' | ⟨e, h'⟩ := run_putObject key path w
  · cases h.symm.trans h'
    exact scratchwork_log _ _
  · cases h.symm.trans h'
    exact (List.append_nil _).symm

/-- The temporary directories that are alive after an entry, from those before it. -/
def aliveAfter (now : List String) : Entry → List String
  | .scratchOpened d => d :: now
  | .scratchCleaned d => now.erase d
  | _ => now

/-- The temporary directories that are alive when some entries were made, the last one first. -/
def alive (entries : List Entry) : List String := entries.foldl aliveAfter []

theorem alive_append {l : List Entry} (h : alive l = []) (l' : List Entry) : alive (l ++ l') = alive l' := by
  rw [alive, List.foldl_append, ← alive, h, alive]

theorem isComponent_scratch (n : Nat) : IsComponent ("tmp" ++ toString n) := by
  apply FilePath.isComponent_append (by decide)
  · rw [Nat.toString_eq_ofList_toDigits, String.toList_ofList]
    exact fun hm => absurd (Nat.isDigit_of_mem_toDigits (by decide) (by decide) hm) (by decide)
  · exact Nat.lt_add_right _ (by decide)

theorem ofString_scratchName (root : FilePath) (n : Nat) :
    FilePath.ofString (scratchName root n) = root.child ("tmp" ++ toString n) := by
  have hn := isComponent_scratch n
  obtain ⟨r, cs⟩ := root
  rw [FilePath.child_of_isComponent _ hn]
  have hr := @FilePath.ofString_components r (cs ++ [⟨_, hn⟩]) (by simp)
  by_cases h : cs = []
  · subst h
    rw [scratchName, FilePath.text]
    cases r with
    | none =>
      have hd := FilePath.ofString_dot hn
      rwa [← String.append_assoc] at hd
    | single => exact hr
    | double => exact hr
  · rw [List.map_append, String.intercalate_append_of_ne_nil (mt List.map_eq_nil_iff.mp h) (by simp)] at hr
    rw [scratchName, FilePath.text, if_neg fun hc => h hc.2, if_neg fun hc => h hc.2, ← hr]
    simp only [List.map_cons, List.map_nil, String.intercalate_singleton, String.append_assoc]

theorem scratch_injective (root : FilePath) :
    Function.Injective fun n => FilePath.ofString (scratchName root n) := by
  intro m n h
  have h : root.child ("tmp" ++ toString m) = root.child ("tmp" ++ toString n) := by
    rw [← ofString_scratchName, ← ofString_scratchName]
    exact h
  rw [FilePath.child_of_isComponent _ (isComponent_scratch m),
    FilePath.child_of_isComponent _ (isComponent_scratch n)] at h
  have hc := List.append_cancel_left (FilePath.mk.inj h).2
  have hs : "tmp" ++ toString m = "tmp" ++ toString n := congrArg Subtype.val (List.cons.inj hc).1
  exact Nat.repr_inj.mp ((String.append_right_inj _).mp hs)

end Outside

namespace Extractor.Pdf

open Outside

/-- A language that was attempted, in what directory, what came of the copy, and what the object storage answered
if it was asked to take it. -/
structure Attempt where
  language : String
  directory : String
  made : Except Fault (Outcome FilePath)
  put : Option (Except Fault Unit)

namespace Attempt

/-- What an attempt stores. -/
def stores (b : Blob) (a : Attempt) : List Entry :=
  match a.made, a.put with
  | .ok (.success output), some (.ok ()) => [.stored (objectKey b.id a.language) output]
  | _, _ => []

def entries (b : Blob) (a : Attempt) : List Entry :=
  .scratchOpened a.directory :: (a.stores b ++ [.scratchCleaned a.directory])

/-- How an attempt ends an extraction: what came of the copy is returned or raised as it is, and so is the fault
of an object storage that does not take it. -/
inductive Ends (a : Attempt) : Except Fault (Outcome Value) → Prop
  | raised {e : Fault} (h : a.made = .error e) : Ends a (.error e)
  | interrupted {reason : String} (h : a.made = .ok (.interrupted reason)) : Ends a (.ok (.interrupted reason))
  | failed {failure : Failure} (h : a.made = .ok (.failed failure)) : Ends a (.ok (.failed failure))
  | unstored {output : FilePath} {e : Fault} (h : a.made = .ok (.success output)) (hp : a.put = some (.error e)) :
      Ends a (.error e)

end Attempt

theorem Attempt.stores_cases (b : Blob) (a : Attempt) :
    a.stores b = [] ∨ ∃ output, a.made = .ok (.success output) ∧ a.put = some (.ok ()) ∧
      a.stores b = [.stored (objectKey b.id a.language) output] := by
  unfold stores
  split
  · rename_i output hm hp
    exact .inr ⟨output, hm, hp, rfl⟩
  · exact .inl rfl

/-- The attempt at one language: a directory is opened, a copy is made in it, one that was made is stored, and
the directory goes. -/
inductive Attempted (s : Setup) (b : Blob) (document : FilePath) (p : Params) (st : Outside × Transcript)
    (language : String) : Attempt → Outside × Transcript → Prop
  | unmade {d : String} {made : Except Fault (Outcome FilePath)} {w' : Outside} {t' : Transcript}
      (hd : d = scratchName s.scratchRoot st.1.scratchCount)
      (hm : ((s.job document p language (.ofString d)).run (s.sink b)).run (st.1.log (.scratchOpened d), st.2) =
        (made, w', t'))
      (hn : ∀ output, made ≠ .ok (.success output)) :
      Attempted s b document p st language ⟨language, d, made, none⟩ (w'.log (.scratchCleaned d), t')
  | made {d : String} {output : FilePath} {put : Except Fault Unit} {w' w'' : Outside} {t' : Transcript}
      (hd : d = scratchName s.scratchRoot st.1.scratchCount)
      (hm : ((s.job document p language (.ofString d)).run (s.sink b)).run (st.1.log (.scratchOpened d), st.2) =
        (.ok (.success output), w', t'))
      (hp : (putObject (objectKey b.id language) output).run w' = (put, w'')) :
      Attempted s b document p st language ⟨language, d, .ok (.success output), some put⟩
        (w''.log (.scratchCleaned d), t')

/-- Attempts at some languages, one after another, up to the first that ends the extraction. -/
inductive Attempts (s : Setup) (b : Blob) (document : FilePath) (p : Params) : List String →
    Outside × Transcript → List Attempt → Except Fault (Outcome Value) → Outside × Transcript → Prop
  | done (st : Outside × Transcript) : Attempts s b document p [] st [] (.ok (.success .null)) st
  | next {language : String} {rest : List String} {st st₁ st' : Outside × Transcript} {a : Attempt}
      {as : List Attempt} {r : Except Fault (Outcome Value)}
      (h : Attempted s b document p st language a st₁) (hp : a.put = some (.ok ()))
      (hr : Attempts s b document p rest st₁ as r st') :
      Attempts s b document p (language :: rest) st (a :: as) r st'
  | stop {language : String} {rest : List String} {st st' : Outside × Transcript} {a : Attempt}
      {r : Except Fault (Outcome Value)} (h : Attempted s b document p st language a st') (he : a.Ends r) :
      Attempts s b document p (language :: rest) st [a] r st'

variable {s : Setup} {b : Blob} {document : FilePath} {p : Params} {st st' : Outside × Transcript}
  {language : String} {languages : List String} {a : Attempt} {as : List Attempt}
  {r : Except Fault (Outcome Value)}

theorem keeps_scratchwork (s : Setup) (b : Blob) (j : Overlay.Job) :
    (j.run (s.sink b)).Keeps fun st => st.1.scratchwork :=
  j.keeps_run fun c => c.keeps_run blind_scratchwork scratchwork_begun
    (blind_scratchwork.append_noteSender s.notifies name b s.throttle)

theorem Attempted.language_eq (h : Attempted s b document p st language a st') : a.language = language := by
  cases h <;> rfl

theorem Attempted.directory_eq (h : Attempted s b document p st language a st') :
    a.directory = scratchName s.scratchRoot st.1.scratchCount := by
  cases h with
  | unmade hd => exact hd
  | made hd => exact hd

theorem Attempted.output_directlyIn (h : Attempted s b document p st language a st') {output : FilePath}
    (ho : a.made = .ok (.success output)) : output.DirectlyIn (.ofString a.directory) := by
  cases h with
  | unmade hd hm hn => exact absurd ho (hn output)
  | made hd hm hp =>
    cases ho
    rw [Overlay.Job.run_success hm]
    exact Overlay.Job.output_directlyIn _

theorem Attempt.stores_of_unmade (hn : ∀ output, a.made ≠ .ok (.success output)) : a.stores b = [] := by
  unfold stores
  split
  · rename_i output hm _
    exact absurd hm (hn output)
  · rfl

theorem Attempted.scratchwork_eq (h : Attempted s b document p st language a st') :
    st'.1.scratchwork = st.1.scratchwork ++ a.entries b := by
  have hmade {d : String} {made : Except Fault (Outcome FilePath)} {w' : Outside} {t' : Transcript}
      (hm : ((s.job document p language (.ofString d)).run (s.sink b)).run (st.1.log (.scratchOpened d), st.2) =
        (made, w', t')) : w'.scratchwork = st.1.scratchwork ++ [.scratchOpened d] := by
    have hk := keeps_scratchwork s b (s.job document p language (.ofString d)) (st.1.log (.scratchOpened d), st.2)
    rw [hm] at hk
    exact hk.trans (scratchwork_log _ _)
  cases h with
  | unmade hd hm hn =>
    rw [scratchwork_log, hmade hm, Attempt.entries, Attempt.stores_of_unmade hn, List.append_assoc]
    rfl
  | @made d output put w' w'' t' hd hm hp =>
    rw [scratchwork_log, scratchwork_putObject hp, hmade hm, List.append_assoc, List.append_assoc]
    cases put <;> rfl

theorem Attempted.scratchCount_eq (h : Attempted s b document p st language a st') :
    st'.1.scratchCount = st.1.scratchCount + 1 := by
  rw [Outside.scratchCount_eq, Outside.scratchCount_eq st.1, h.scratchwork_eq, List.countP_append]
  obtain hs | ⟨output, -, -, hs⟩ := a.stores_cases b
  · rw [Attempt.entries, hs]
    rfl
  · rw [Attempt.entries, hs]
    rfl

theorem language_run_of_workIn {w w' : Outside} {t t' : Transcript} {o : Except Fault (Outcome Unit)}
    (h : (workIn s b document p language (.ofString (scratchName s.scratchRoot w.scratchCount))).run
      (w.log (.scratchOpened (scratchName s.scratchRoot w.scratchCount)), t) = (o, w', t')) :
    (s.language b document p language).run (w, t) =
      (o, w'.log (.scratchCleaned (scratchName s.scratchRoot w.scratchCount)), t') := by
  rw [language_eq, run_withScratch, h]

/-- A language is attempted, and either its copy is stored and the rest follow or the attempt ends the
extraction. -/
theorem languages_cons (s : Setup) (b : Blob) (document : FilePath) (p : Params) (language : String)
    (rest : List String) (st : Outside × Transcript) :
    ∃ a st', Attempted s b document p st language a st' ∧
      (a.put = some (.ok ()) ∧
          (s.languages b document p (language :: rest)).run st = (s.languages b document p rest).run st' ∨
        ∃ r, a.Ends r ∧ (s.languages b document p (language :: rest)).run st = (r, st')) := by
  obtain ⟨w, t⟩ := st
  let d := scratchName s.scratchRoot w.scratchCount
  rw [Setup.languages, Action.run_bind]
  cases hm : ((s.job document p language (.ofString d)).run (s.sink b)).run (w.log (.scratchOpened d), t) with
  | mk made st' =>
    obtain ⟨w', t'⟩ := st'
    rcases made with e | output | reason | failure
    · have hw := language_run_of_workIn (Action.run_bind_of_error hm)
      rw [hw]
      exact ⟨_, _, .unmade rfl hm (by simp), .inr ⟨_, .raised rfl, rfl⟩⟩
    · cases hp : (putObject (objectKey b.id language) output).run w' with
      | mk put w'' =>
        have hput : (Action.first (putObject (objectKey b.id language) output)).run (w', t') = (put, w'', t') := by
          rw [Action.run_first, hp]
        cases put with
        | ok u =>
          have hw := language_run_of_workIn ((Action.run_bind_of_ok hm).trans (Action.run_bind_of_ok hput))
          rw [hw]
          exact ⟨_, _, .made rfl hm hp, .inl ⟨rfl, rfl⟩⟩
        | error e =>
          have hw := language_run_of_workIn ((Action.run_bind_of_ok hm).trans (Action.run_bind_of_error hput))
          rw [hw]
          exact ⟨_, _, .made rfl hm hp, .inr ⟨_, .unstored rfl rfl, rfl⟩⟩
    · have hw := language_run_of_workIn (Action.run_bind_of_ok hm)
      rw [hw]
      exact ⟨_, _, .unmade rfl hm (by simp), .inr ⟨_, .interrupted rfl, rfl⟩⟩
    · have hw := language_run_of_workIn (Action.run_bind_of_ok hm)
      rw [hw]
      exact ⟨_, _, .unmade rfl hm (by simp), .inr ⟨_, .failed rfl, rfl⟩⟩

theorem languages_attempts (s : Setup) (b : Blob) (document : FilePath) (p : Params) (languages : List String)
    (st : Outside × Transcript) :
    ∃ as, Attempts s b document p languages st as ((s.languages b document p languages).run st).1
      ((s.languages b document p languages).run st).2 := by
  induction languages generalizing st with
  | nil => exact ⟨[], .done st⟩
  | cons language rest ih =>
    obtain ⟨a, st', ha, ⟨hp, hr⟩ | ⟨r, he, hr⟩⟩ := languages_cons s b document p language rest st
    · obtain ⟨as, has⟩ := ih st'
      rw [hr]
      exact ⟨a :: as, .next ha hp has⟩
    · rw [hr]
      exact ⟨[a], .stop ha he⟩

theorem Attempts.attempted (h : Attempts s b document p languages st as r st') :
    as.map (·.language) <+: languages := by
  induction h with
  | done st => exact List.prefix_rfl
  | next h hp hr ih =>
    rw [List.map_cons, h.language_eq]
    exact (List.prefix_cons_inj _).mpr ih
  | stop h he =>
    rw [List.map_cons, h.language_eq]
    exact (List.prefix_cons_inj _).mpr (List.nil_prefix)

theorem Attempts.scratchwork_eq (h : Attempts s b document p languages st as r st') :
    st'.1.scratchwork = st.1.scratchwork ++ as.flatMap (Attempt.entries b) := by
  induction h with
  | done st => exact (List.append_nil _).symm
  | next h hp hr ih => rw [ih, h.scratchwork_eq, List.flatMap_cons, List.append_assoc]
  | stop h he => rw [h.scratchwork_eq, List.flatMap_singleton]

theorem Attempts.directories_eq (h : Attempts s b document p languages st as r st') :
    as.map (·.directory) = (List.range' st.1.scratchCount as.length).map (scratchName s.scratchRoot) := by
  induction h with
  | done st => rfl
  | next h hp hr ih =>
    rw [List.map_cons, h.directory_eq, ih, List.length_cons, List.range'_succ, List.map_cons, h.scratchCount_eq]
  | stop h he =>
    rw [List.map_singleton, h.directory_eq]
    rfl

theorem Attempts.output_directlyIn (h : Attempts s b document p languages st as r st') :
    ∀ a ∈ as, ∀ output, a.made = .ok (.success output) → output.DirectlyIn (.ofString a.directory) := by
  induction h with
  | done st => exact List.forall_mem_nil _
  | next h hp hr ih =>
    intro a ha output ho
    rcases List.mem_cons.mp ha with rfl | ha
    · exact h.output_directlyIn ho
    · exact ih a ha output ho
  | stop h he =>
    intro a ha output ho
    obtain rfl := List.mem_singleton.mp ha
    exact h.output_directlyIn ho

theorem Attempts.decided (h : Attempts s b document p languages st as r st') (hl : languages ≠ []) :
    ∃ before last, as = before ++ [last] ∧ (∀ a ∈ before, a.put = some (.ok ())) ∧
      (last.Ends r ∨ last.put = some (.ok ()) ∧ as.map (·.language) = languages ∧ r = .ok (.success .null)) := by
  induction h with
  | done st => exact absurd rfl hl
  | @next language rest st st₁ st' a as r h hp hr ih =>
    by_cases hn : rest = []
    · subst hn
      cases hr
      exact ⟨[], a, rfl, List.forall_mem_nil _, .inr ⟨hp, congrArg (fun l => [l]) h.language_eq, rfl⟩⟩
    · obtain ⟨before, last, rfl, hb, he⟩ := ih hn
      refine ⟨a :: before, last, rfl, ?_, ?_⟩
      · intro c hc
        rcases List.mem_cons.mp hc with rfl | hc
        · exact hp
        · exact hb c hc
      · rw [List.map_cons, h.language_eq]
        exact he.imp_right fun ⟨hp, hl, hr⟩ => ⟨hp, congrArg _ hl, hr⟩
  | @stop language rest st st' a r h he => exact ⟨[], a, rfl, List.forall_mem_nil _, .inl he⟩

namespace Attempt

theorem alive_entries (b : Blob) (a : Attempt) : alive (a.entries b) = [] := by
  have h : [a.directory].erase a.directory = [] := by simp
  obtain hs | ⟨output, -, -, hs⟩ := a.stores_cases b
  · rw [entries, hs]
    exact h
  · rw [entries, hs]
    exact h

theorem alive_flatMap (b : Blob) (as : List Attempt) : alive (as.flatMap (entries b)) = [] := by
  induction as with
  | nil => rfl
  | cons a as ih => rw [List.flatMap_cons, alive_append (a.alive_entries b), ih]

/-- During an attempt no more than its directory is alive, and it is when a file is stored. -/
theorem alive_part {part : List Entry} {e : Entry} (h : part ++ [e] <+: a.entries b) :
    (alive (part ++ [e])).length ≤ 1 ∧
      ∀ key path, e = .stored key path → alive part = [a.directory] ∧ a.stores b = [.stored key path] := by
  have hlast {x : Entry} {part : List Entry} (h : part ++ [e] <+: [x]) : part = [] ∧ e = x := by
    cases part with
    | nil => exact ⟨rfl, (List.cons_prefix_cons.mp h).1⟩
    | cons y part => simp at h
  have hclean : ([a.directory].erase a.directory).length ≤ 1 := by simp
  cases part with
  | nil =>
    obtain ⟨rfl, -⟩ := List.cons_prefix_cons.mp h
    exact ⟨Nat.le_refl 1, nofun⟩
  | cons x part =>
    obtain ⟨rfl, hp⟩ := List.cons_prefix_cons.mp h
    obtain hs | ⟨output, -, -, hs⟩ := a.stores_cases b
    · rw [hs] at hp
      obtain ⟨rfl, rfl⟩ := hlast hp
      exact ⟨hclean, nofun⟩
    · rw [hs] at hp
      cases part with
      | nil =>
        obtain ⟨rfl, -⟩ := List.cons_prefix_cons.mp hp
        exact ⟨Nat.le_refl 1, fun key path he => ⟨rfl, he ▸ hs⟩⟩
      | cons y part =>
        obtain ⟨rfl, hq⟩ := List.cons_prefix_cons.mp hp
        obtain ⟨rfl, rfl⟩ := hlast hq
        exact ⟨hclean, nofun⟩

end Attempt

/-- How attempts at some languages use temporary directories and the object storage. -/
structure Disciplined (s : Setup) (b : Blob) (languages : List String) (as : List Attempt)
    (r : Except Fault (Outcome Value)) : Prop where
  attempted : as.map (·.language) <+: languages
  /-- The directories are different, and directly in the directory that is meant for them. -/
  fresh : (as.map fun a => FilePath.ofString a.directory).Nodup ∧
    ∀ a ∈ as, (FilePath.ofString a.directory).DirectlyIn s.scratchRoot
  /-- No two directories are alive at the same time, and none in the end. -/
  single : (∀ done, done <+: as.flatMap (Attempt.entries b) → (alive done).length ≤ 1) ∧
    alive (as.flatMap (Attempt.entries b)) = []
  /-- What is stored is a copy that was made, and lies directly in the directory of its language, which is alive
  then. -/
  stored : ∀ done key path, done ++ [.stored key path] <+: as.flatMap (Attempt.entries b) →
    ∃ a ∈ as, key = objectKey b.id a.language ∧ a.made = .ok (.success path) ∧ alive done = [a.directory] ∧
      path.DirectlyIn (.ofString a.directory)
  /-- All attempts but the last are stored, and the last decides, unless it is that at the last language and is
  stored as well. -/
  decided : ∃ before last, as = before ++ [last] ∧ (∀ a ∈ before, a.put = some (.ok ())) ∧
    (last.Ends r ∨ last.put = some (.ok ()) ∧ as.map (·.language) = languages ∧ r = .ok (.success .null))

theorem Attempts.disciplined (h : Attempts s b document p languages st as r st') (hl : languages ≠ []) :
    Disciplined s b languages as r := by
  have hdirs : (as.map fun a => FilePath.ofString a.directory) =
      (List.range' st.1.scratchCount as.length).map fun n => FilePath.ofString (scratchName s.scratchRoot n) := by
    have := congrArg (List.map FilePath.ofString) h.directories_eq
    rwa [List.map_map, List.map_map] at this
  have hbefore {before : List Attempt} {part : List Entry} :
      alive (before.flatMap (Attempt.entries b) ++ part) = alive part :=
    alive_append (Attempt.alive_flatMap b before) part
  constructor
  · exact h.attempted
  · constructor
    · rw [hdirs]
      exact (List.nodup_range' 1).map (scratch_injective s.scratchRoot)
    · intro a ha
      have hd := List.mem_map_of_mem (f := fun a : Attempt => FilePath.ofString a.directory) ha
      rw [hdirs] at hd
      obtain ⟨n, -, hn⟩ := List.mem_map.mp hd
      rw [← hn, ofString_scratchName]
      exact FilePath.child_directlyIn _ (isComponent_scratch n)
  · constructor
    · intro done hd
      obtain rfl | ⟨done, e, rfl⟩ := List.eq_nil_or_concat done
      · exact Nat.zero_le 1
      · rw [List.concat_eq_append] at hd ⊢
        obtain ⟨before, a, after, part, -, rfl, hp⟩ := Lists.snoc_prefix_flatMap hd
        rw [List.append_assoc, hbefore]
        exact (Attempt.alive_part hp).1
    · exact Attempt.alive_flatMap b as
  · intro done key path hd
    obtain ⟨before, a, after, part, hs, rfl, hp⟩ := Lists.snoc_prefix_flatMap hd
    have ha : a ∈ as := by simp [hs]
    obtain ⟨halive, hstores⟩ := (Attempt.alive_part hp).2 key path rfl
    obtain hn | ⟨output, hm, -, ho⟩ := a.stores_cases b
    · rw [hn] at hstores
      cases hstores
    · cases ho.symm.trans hstores
      exact ⟨a, ha, rfl, hm, hbefore.trans halive, h.output_directlyIn a ha path hm⟩
  · exact h.decided hl

/-- The extractor has one temporary directory for each language that it attempts, and never two at the same time.
A copy is stored while its directory is alive, and every directory is gone in the end, whatever the end is. Asked
for no language, the extractor does nothing. -/
theorem extract_disciplined (s : Setup) (b : Blob) (document : FilePath) (p : Params) (w : Outside) :
    let final := (s.extract b document p).run w
    p.languages = [] ∧ (∃ e, final = (.error e, w) ∧ e.kind = .missingParameter) ∨
      p.languages ≠ [] ∧ ∃ as t,
        Attempts s b document p p.languages (w.log (.directoryMade s.scratchRoot), .empty) as final.1 (final.2, t) ∧
        final.2.scratchwork = w.scratchwork ++ as.flatMap (Attempt.entries b) ∧
        Disciplined s b p.languages as final.1 := by
  intro final
  by_cases hl : p.languages = []
  · refine .inl ⟨hl, ?_⟩
    simp only [final, Setup.extract, hl]
    exact ⟨_, rfl, rfl⟩
  · refine .inr ⟨hl, ?_⟩
    let st : Outside × Transcript := (w.log (.directoryMade s.scratchRoot), .empty)
    obtain ⟨as, h⟩ := languages_attempts s b document p p.languages st
    have hrun : final = (((s.languages b document p p.languages).run st).1,
        ((s.languages b document p p.languages).run st).2.1) := run_extract hl s b document w
    rw [hrun]
    refine ⟨as, _, h, ?_, h.disciplined hl⟩
    rw [h.scratchwork_eq, scratchwork_log]
    exact congrArg (· ++ _) (List.append_nil _)

end Extractor.Pdf
end Intake
