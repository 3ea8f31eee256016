import Intake.Proofs.Dispatch.News

/-!
# Sessions

A session is a list of calls that a worker takes, each of which may end with a fault. What holds of the
rows of events before a session holds after it, if every course of a dispatch keeps it and every purge does.
-/
namespace Intake

/-- The rows that events become when they are stored one after another, each with the next number. -/
inductive Store.Extends : List EventRow → List Event → List EventRow → Prop
  | nil (l : List EventRow) : Extends l [] l
  | cons {l l' : List EventRow} {r : EventRow} {e : Event} {es : List Event} (hw : r.written = e)
      (hi : r.id = nextId (l.map EventRow.id)) (h : Extends (l ++ [r]) es l') : Extends l (e :: es) l'

namespace Store.Extends

variable {l l' : List EventRow} {es es' : List Event}

theorem prefix_of (h : Extends l es l') : l <+: l' := by
  induction h with
  | nil l => exact List.prefix_rfl
  | @cons l l' r e es _ _ _ ih => exact (List.prefix_append l [r]).trans ih

theorem split (h : Extends l (es ++ es') l') : ∃ l₁, Extends l es l₁ ∧ Extends l₁ es' l' := by
  induction es generalizing l with
  | nil => exact ⟨l, .nil l, h⟩
  | cons e es ih =>
    cases h with
    | cons hw hi h =>
      obtain ⟨l₁, h₁, h₂⟩ := ih h
      exact ⟨l₁, .cons hw hi h₁, h₂⟩

theorem forall_written {P : Event → Prop} (h : Extends l es l') (hl : ∀ r ∈ l, P r.written)
    (he : ∀ e ∈ es, P e) : ∀ r ∈ l', P r.written := by
  induction h with
  | nil l => exact hl
  | @cons l l' r e es hw _ _ ih =>
    obtain ⟨hfirst, hrest⟩ := List.forall_mem_cons.mp he
    apply ih _ hrest
    intro t ht
    rcases List.mem_append.mp ht with ht | ht
    · exact hl t ht
    · rw [List.mem_singleton.mp ht, hw]
      exact hfirst

end Store.Extends

theorem Dispatch.Performed.extends {b : Blob} {path : FilePath} {p : Params} {ds : List Deed}
    {st st' : Store × Outside} (h : Performed Store.log b path p ds st st') (hf : Deed.Fresh ds) :
    Store.Extends st.1.events (ds.filterMap Deed.stored?) st'.1.events := by
  induction h with
  | nil st => exact .nil _
  | @cons d ds st st₁ st₂ hd _ ih =>
    obtain ⟨s, w⟩ := st
    obtain ⟨s₁, w₁⟩ := st₁
    have hrest := ih hf.of_cons
    cases d with
    | stored e =>
      obtain ⟨r, hw, hi, -, rfl⟩ := Store.insertEvent_fresh_ok hf.of_stored hd.1
      exact .cons hw hi hrest
    | refused e f =>
      obtain ⟨⟨_, rfl, -⟩, -⟩ := Store.insertEvent_error hd.1
      exact hrest
    | ended x r =>
      obtain ⟨-, rfl⟩ := hd
      exact hrest

namespace Request

def handle (q : Request) (uploadPath : String) : Action Store Report :=
  .lend q.outside (Intake.handle Store.log q.registry ⟨q.blob, q.file, uploadPath, q.params⟩)

theorem run_extends (q : Request) (s : Store) :
    ∃ ds r, Dispatch.Course q.blob q.params q.candidates ds r ∧
      Store.Extends s.events (ds.filterMap Dispatch.Deed.stored?) (q.run.run s).2.events := by
  obtain ⟨ds, hp, hc⟩ := Dispatch.dispatch_course Store.log q.registry q.blob q.file q.params (s, q.outside)
  exact ⟨ds, _, hc, hp.extends hc.fresh⟩

theorem handle_cases (q : Request) (uploadPath : String) (s : Store) :
    ((q.handle uploadPath).run s).2.events = s.events ∨
      ∃ s₁, s₁.events = s.events ∧ (q.handle uploadPath).run s = q.run.run s₁ := by
  let x : Sighting := Task.sighting ⟨q.blob, q.file, uploadPath, q.params⟩
  rw [handle, Intake.handle, Action.run_lend, Action.run_bind, Action.run_first]
  cases hx : (Store.log.insertSighting x).run s with
  | mk r s₁ =>
    cases r with
    | ok u =>
      obtain ⟨row, -, hs⟩ := Store.insertSighting_ok hx
      have he : s₁.events = s.events := by rw [hs]
      exact .inr ⟨s₁, he, rfl⟩
    | error f =>
      obtain ⟨⟨d, rfl⟩, -⟩ := Store.insertSighting_error hx
      exact .inl rfl

end Request

/-- A call that a worker takes. The outside that it meets is its own. -/
inductive Errand where
  | dispatch (q : Request)
  | handle (q : Request) (uploadPath : String)
  | purge (blobId : String)

namespace Errand

def after : Errand → Store → Store
  | dispatch q, s => (q.run.run s).2
  | handle q uploadPath, s => ((q.handle uploadPath).run s).2
  | purge b, s => ((Store.purge b).run s).2

def afterAll (errands : List Errand) (s : Store) : Store := errands.foldl (fun s e => e.after s) s

variable {P : List EventRow → Prop}

theorem events_after (hc : ∀ {b : Blob} {p : Params} {xs : List Extractor} {ds : List Dispatch.Deed}
      {r : Except Fault Report} {l l' : List EventRow}, Dispatch.Course b p xs ds r →
      Store.Extends l (ds.filterMap Dispatch.Deed.stored?) l' → P l → P l')
    (hp : ∀ {l : List EventRow} (b : String), P l → P (l.filter fun r => r.blobId != b))
    (e : Errand) {s : Store} (h : P s.events) : P (e.after s).events := by
  have hd (q : Request) {s : Store} (h : P s.events) : P (q.run.run s).2.events := by
    obtain ⟨ds, r, hcourse, hext⟩ := q.run_extends s
    exact hc hcourse hext h
  cases e with
  | dispatch q => exact hd q h
  | handle q uploadPath =>
    rw [after]
    obtain he | ⟨s₁, he, hr⟩ := q.handle_cases uploadPath s
    · rw [he]
      exact h
    · rw [hr]
      exact hd q (he ▸ h)
  | purge b =>
    rw [after]
    obtain ⟨d, hr | ⟨words, hr⟩⟩ := Store.purge_cases b s
    · rw [hr]
      exact hp b h
    · rw [hr]
      exact h

/-- What dispatches and purges keep of the rows of events, whole sessions keep. -/
theorem events_afterAll (hc : ∀ {b : Blob} {p : Params} {xs : List Extractor} {ds : List Dispatch.Deed}
      {r : Except Fault Report} {l l' : List EventRow}, Dispatch.Course b p xs ds r →
      Store.Extends l (ds.filterMap Dispatch.Deed.stored?) l' → P l → P l')
    (hp : ∀ {l : List EventRow} (b : String), P l → P (l.filter fun r => r.blobId != b))
    (errands : List Errand) {s : Store} (h : P s.events) : P (afterAll errands s).events := by
  induction errands generalizing s with
  | nil => exact h
  | cons e errands ih =>
    rw [afterAll, List.foldl_cons]
    exact ih (events_after hc hp e h)

end Errand
end Intake
