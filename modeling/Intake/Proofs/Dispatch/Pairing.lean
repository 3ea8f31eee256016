import Intake.Proofs.Dispatch.Session

/-!
# Attempts in the log

The end of a run stands directly behind its start, and every run behind an event that names its extractor.
So what the log says of an extractor on a blob are attempts, one after another, with an end or without one.
-/
namespace Intake

namespace EventRow

/-- A row about a run of an extractor on a blob in an ingestion. -/
def IsRun (b i x : String) (r : EventRow) : Prop :=
  r.blobId = b ∧ r.ingestId = i ∧ r.type = EventType.runExtractor.name ∧
    r.toEvent.extractorName = .ok (.text x)

instance (b i x : String) (r : EventRow) : Decidable (r.IsRun b i x) :=
  inferInstanceAs (Decidable (_ ∧ _ ∧ _ ∧ _))

/-- A row that says that an extractor is going to run on a blob in an ingestion. -/
def Declares (b i x : String) (r : EventRow) : Prop :=
  r.blobId = b ∧ r.ingestId = i ∧ r.type = EventType.mimeTypeDetected.name ∧
    ∃ names, r.toEvent.detail "extractors" = .ok (.list names) ∧ .text x ∈ names

def IsStart (r : EventRow) : Prop := r.status = EventStatus.started.name

def IsEnd (r : EventRow) : Prop := r.status = EventStatus.success.name ∨ r.status = EventStatus.failure.name

variable {b i x b' i' x' : String} {r : EventRow}

theorem IsRun.unique (h : r.IsRun b i x) (h' : r.IsRun b' i' x') : b = b' ∧ i = i' ∧ x = x' := by
  obtain ⟨hb, hi, -, hx⟩ := h
  obtain ⟨hb', hi', -, hx'⟩ := h'
  have ht := hx.symm.trans hx'
  simp only [Except.ok.injEq, Value.text.injEq] at ht
  exact ⟨hb.symm.trans hb', hi.symm.trans hi', ht⟩

end EventRow

namespace Store

open Dispatch

/-- A row about a run that may come after others: a start, or an end right after its start. -/
def Backed (l : List EventRow) (r : EventRow) : Prop :=
  ∃ b i x, r.IsRun b i x ∧ (∃ d ∈ l, d.Declares b i x) ∧
    (r.IsStart ∨ r.IsEnd ∧ ∃ l₀ q, l = l₀ ++ [q] ∧ q.IsRun b i x ∧ q.IsStart ∧ r.id = q.id + 1)

/-- Every row about a run is one that may come after those that stand before it. -/
def Paired (rows : List EventRow) : Prop :=
  ∀ l r l', rows = l ++ r :: l' → r.type = EventType.runExtractor.name → Backed l r

/-- The rows of one attempt: its start, and its end if it has one. -/
inductive IsAttempt : List EventRow → Prop
  | opened {q : EventRow} (h : q.IsStart) : IsAttempt [q]
  | closed {q r : EventRow} (h : q.IsStart) (h' : r.IsEnd) (hid : r.id = q.id + 1) : IsAttempt [q, r]

variable {l l' : List EventRow} {r : EventRow}

theorem Backed.filter {p : EventRow → Bool} (hp : ∀ q r : EventRow, q.blobId = r.blobId → p q = p r)
    (hr : p r = true) (h : Backed l r) : Backed (l.filter p) r := by
  obtain ⟨b, i, x, hx, ⟨d, hd, hdecl⟩, h⟩ := h
  have hkeep (q : EventRow) (hq : q.blobId = b) : p q = true := by
    rw [hp q r (hq.trans hx.1.symm), hr]
  refine ⟨b, i, x, hx, ⟨d, List.mem_filter.mpr ⟨hd, hkeep d hdecl.1⟩, hdecl⟩, ?_⟩
  apply h.imp_right
  rintro ⟨hend, l₀, q, rfl, hq, hrest⟩
  refine ⟨hend, l₀.filter p, q, ?_, hq, hrest⟩
  rw [List.filter_append, List.filter_cons_of_pos (hkeep q hq.1), List.filter_nil]

theorem paired_nil : Paired [] := by
  intro l r l' h
  simp at h

theorem Paired.of_append (h : Paired (l ++ l')) : Paired l := by
  intro l₁ r l₂ he
  exact h l₁ r (l₂ ++ l') (by rw [he, List.append_assoc, List.cons_append])

theorem Paired.snoc (h : Paired l) (hr : r.type = EventType.runExtractor.name → Backed l r) :
    Paired (l ++ [r]) := by
  intro l₁ q l₂ he
  rcases List.eq_nil_or_concat l₂ with rfl | ⟨l₂, t, rfl⟩
  · obtain ⟨rfl, hq⟩ := List.append_inj' he rfl
    cases hq
    exact hr
  · have he' : l ++ [r] = (l₁ ++ q :: l₂) ++ [t] := by simpa using he
    obtain ⟨rfl, -⟩ := List.append_inj' he' rfl
    exact h l₁ q l₂ rfl

theorem Paired.filter {p : EventRow → Bool} (hp : ∀ q r : EventRow, q.blobId = r.blobId → p q = p r)
    (h : Paired l) : Paired (l.filter p) := by
  intro l₁ r l₂ he ht
  obtain ⟨m₁, m, rfl, rfl, hm⟩ := List.filter_eq_append_iff.mp he
  obtain ⟨m₂, m₃, rfl, hout, hr, -⟩ := List.filter_eq_cons_iff.mp hm
  have hb : Backed (m₁ ++ m₂) r := h (m₁ ++ m₂) r m₃ (List.append_assoc ..).symm ht
  have hf : (m₁ ++ m₂).filter p = m₁.filter p := by
    rw [List.filter_append, List.filter_eq_nil_iff.mpr hout, List.append_nil]
  rw [← hf]
  exact hb.filter hp hr

/-- In a paired log the rows about one extractor on one blob in one ingestion are attempts. -/
theorem Paired.attempts (h : Paired l) (b i x : String) :
    ∃ attempts : List (List EventRow), l.filter (·.IsRun b i x) = attempts.flatten ∧
      ∀ a ∈ attempts, IsAttempt a := by
  -- The last attempt may take up the last two rows, so the induction is on the length.
  induction hn : l.length using Nat.strongRecOn generalizing l with
  | ind n ih =>
    rcases List.eq_nil_or_concat l with rfl | ⟨l, r, rfl⟩
    · exact ⟨[], rfl, by simp⟩
    rw [List.concat_eq_append] at *
    have hlen : l.length < n := by simp at hn; omega
    have hl : Paired l := h.of_append
    by_cases hr : r.IsRun b i x
    · obtain ⟨b', i', x', hx, -, hcase⟩ := h l r [] rfl hr.2.2.1
      obtain ⟨rfl, rfl, rfl⟩ := hx.unique hr
      obtain hs | ⟨hend, l₀, q, rfl, hq, hs, hid⟩ := hcase
      · obtain ⟨as, has, ha⟩ := ih l.length hlen hl rfl
        refine ⟨as ++ [[r]], ?_, ?_⟩
        · simp [has, hr]
        · simpa [or_imp, forall_and] using ⟨ha, IsAttempt.opened hs⟩
      · obtain ⟨as, has, ha⟩ := ih l₀.length (by simp at hlen; omega) hl.of_append rfl
        refine ⟨as ++ [[q, r]], ?_, ?_⟩
        · simp [has, hr, hq]
        · simpa [or_imp, forall_and] using ⟨ha, IsAttempt.closed hs hend hid⟩
    · obtain ⟨as, has, ha⟩ := ih l.length hlen hl rfl
      exact ⟨as, by simp [has, hr], ha⟩

end Store

namespace EventRow

open Dispatch

variable {b : Blob} {p : Params} {name : String} {names : List String} {r : EventRow}

theorem isRun_of_written {s : EventStatus} {es : List EventError} (h : r.written = ran b p name s es) :
    r.IsRun b.id p.ingestId name ∧ r.status = s.name := by
  have hb : some r.blobId = some b.id := congrArg Event.blobId h
  have hi : some r.ingestId = some p.ingestId := congrArg Event.ingestId h
  have ht : r.type = EventType.runExtractor.name := congrArg Event.type h
  have hx : r.written.extractorName = (ran b p name s es).extractorName := congrArg Event.extractorName h
  exact ⟨⟨Option.some.inj hb, Option.some.inj hi, ht, hx⟩, congrArg Event.status h⟩

theorem declares_of_written (h : r.written = detected b p names) (hn : name ∈ names) :
    r.Declares b.id p.ingestId name := by
  have hb : some r.blobId = some b.id := congrArg Event.blobId h
  have hi : some r.ingestId = some p.ingestId := congrArg Event.ingestId h
  have ht : r.type = EventType.mimeTypeDetected.name := congrArg Event.type h
  have hx : r.written.detail "extractors" = (detected b p names).detail "extractors" :=
    congrArg (Event.detail "extractors") h
  exact ⟨Option.some.inj hb, Option.some.inj hi, ht, names.map .text, hx, List.mem_map_of_mem hn⟩

end EventRow

namespace Dispatch

variable {b : Blob} {p : Params} {x : Extractor} {name : String} {ds : List Deed}

/-- The events of an attempt that are in the log: none, its start, or its start and its end. -/
inductive Logged (b : Blob) (p : Params) (name : String) : List Event → Prop
  | unstarted : Logged b p name []
  | opened : Logged b p name [ran b p name .started []]
  | closed {s : EventStatus} (h : s = .success ∨ s = .failure) (es : List EventError) :
      Logged b p name [ran b p name .started [], ran b p name s es]

theorem closing?_ran {o : Outcome Value} {e : Event} (h : closing? b p name o = some e) :
    ∃ s es, (s = EventStatus.success ∨ s = .failure) ∧ e = ran b p name s es := by
  cases o with
  | success v => cases h; exact ⟨_, _, .inl rfl, rfl⟩
  | interrupted reason => cases h
  | failed f => cases h; exact ⟨_, _, .inr rfl, rfl⟩

theorem Attempt.logged {r : Except Fault (Outcome Value)} (h : Attempt b p x ds r) :
    Logged b p x.name (ds.filterMap Deed.stored?) := by
  cases h with
  | unstarted f => exact .unstarted
  | interrupted reason => exact .opened
  | closed h hc =>
    obtain ⟨s, es, hs, rfl⟩ := closing?_ran hc
    exact .closed hs es
  | unclosed h hc f => exact .opened
  | left h => exact .opened
  | misconfigured h => exact .closed (.inr rfl) _
  | misconfiguredUnclosed h g => exact .opened

theorem Attempts.logged {xs : List Extractor} {r : Except Fault (List (Extractor × Outcome Value))}
    (h : Attempts b p xs ds r) :
    ∃ as : List (List Event), ds.filterMap Deed.stored? = as.flatten ∧
      ∀ a ∈ as, ∃ name ∈ xs.map Extractor.name, Logged b p name a := by
  induction h with
  | nil => exact ⟨[], rfl, by simp⟩
  | @next x xs ds ds' o r ha _ ih =>
    obtain ⟨as, has, hl⟩ := ih
    refine ⟨ds.filterMap Deed.stored? :: as, ?_, ?_⟩
    · rw [List.filterMap_append, has, List.flatten_cons]
    · intro a hm
      rcases List.mem_cons.mp hm with rfl | hm
      · exact ⟨x.name, List.mem_cons_self, ha.logged⟩
      · obtain ⟨name, hn, hl⟩ := hl a hm
        exact ⟨name, List.mem_cons_of_mem _ hn, hl⟩
  | @stop x xs ds f ha =>
    refine ⟨[ds.filterMap Deed.stored?], by simp, ?_⟩
    intro a hm
    rw [List.mem_singleton.mp hm]
    exact ⟨x.name, List.mem_cons_self, ha.logged⟩

end Dispatch

namespace Store

open Dispatch

variable {b : Blob} {p : Params} {l l' : List EventRow}

theorem nextId_snoc {r : EventRow} (h : r.id = nextId (l.map EventRow.id)) :
    nextId ((l ++ [r]).map EventRow.id) = r.id + 1 := by
  have hmax : r.id = (l.map EventRow.id).foldl max 0 + 1 := h
  rw [nextId, List.map_append, List.map_singleton, List.foldl_append, List.foldl_cons, List.foldl_nil]
  omega

theorem Paired.attempt {name : String} {es : List Event} (h : Paired l)
    (hd : ∃ d ∈ l, d.Declares b.id p.ingestId name) (hl : Logged b p name es) (he : Extends l es l') :
    Paired l' := by
  have hstart {q : EventRow} (hq : q.written = ran b p name .started []) : Paired (l ++ [q]) := by
    obtain ⟨hrun, hs⟩ := EventRow.isRun_of_written hq
    exact h.snoc fun _ => ⟨_, _, _, hrun, hd, .inl hs⟩
  cases hl with
  | unstarted =>
    cases he
    exact h
  | opened =>
    obtain _ | ⟨hq, hi, he⟩ := he
    cases he
    exact hstart hq
  | @closed s hs errors =>
    obtain _ | @⟨_, _, q, _, _, hq, hi, he⟩ := he
    obtain _ | @⟨_, _, r, _, _, hr, hi', he⟩ := he
    cases he
    obtain ⟨hqrun, hqs⟩ := EventRow.isRun_of_written hq
    obtain ⟨hrrun, hrs⟩ := EventRow.isRun_of_written hr
    obtain ⟨d, hdl, hdecl⟩ := hd
    have hend : r.IsEnd := hs.imp (fun h => hrs.trans (by rw [h])) fun h => hrs.trans (by rw [h])
    have hid : r.id = q.id + 1 := hi'.trans (nextId_snoc hi)
    apply (hstart hq).snoc
    intro _
    exact ⟨_, _, _, hrrun, ⟨d, List.mem_append_left _ hdl, hdecl⟩, .inr ⟨hend, l, q, rfl, hqrun, hqs, hid⟩⟩

theorem Paired.attempts_of_logged {names : List String} {as : List (List Event)} (h : Paired l)
    (hd : ∀ name ∈ names, ∃ d ∈ l, d.Declares b.id p.ingestId name)
    (hl : ∀ a ∈ as, ∃ name ∈ names, Logged b p name a) (he : Extends l as.flatten l') : Paired l' := by
  induction as generalizing l with
  | nil =>
    cases he
    exact h
  | cons a as ih =>
    obtain ⟨l₁, h₁, h₂⟩ := he.split
    obtain ⟨name, hn, ha⟩ := hl a List.mem_cons_self
    refine ih (h.attempt (hd name hn) ha h₁) ?_ (fun a ha => hl a (List.mem_cons_of_mem _ ha)) h₂
    intro name hn
    obtain ⟨d, hdl, hdecl⟩ := hd name hn
    exact ⟨d, h₁.prefix_of.subset hdl, hdecl⟩

/-- Every course of a dispatch keeps a log paired, wherever it is cut short. -/
theorem Paired.course {xs : List Extractor} {ds : List Deed} {r : Except Fault Report}
    (hc : Course b p xs ds r) (he : Extends l (ds.filterMap Deed.stored?) l') (h : Paired l) :
    Paired l' := by
  cases hc with
  | undetected f =>
    cases he
    exact h
  | detected ha =>
    obtain ⟨as, has, hl⟩ := ha.logged
    obtain _ | @⟨_, _, d, _, _, hd, hi, he⟩ := he
    rw [has] at he
    have ht : d.type ≠ EventType.runExtractor.name := by
      have : d.type = EventType.mimeTypeDetected.name := congrArg Event.type hd
      rw [this]
      decide
    refine (h.snoc fun ht' => absurd ht' ht).attempts_of_logged ?_ hl he
    intro name hn
    exact ⟨d, by simp, EventRow.declares_of_written hd hn⟩

end Store

/-- Attempts pair up over whole sessions, whichever writes the database refuses and however extractors end.
The rows about an extractor on a blob in an ingestion are starts, each followed by at most one end. An end
is the row right after its start, in the table and in number; and a run stands behind a row that declares
its extractor. -/
theorem Errand.attempts_paired (errands : List Errand) (clock : Clock) (d : Disturbances) :
    let rows := (afterAll errands { Store.empty clock with disturbances := d }).events
    (∀ b i x, ∃ attempts : List (List EventRow), rows.filter (·.IsRun b i x) = attempts.flatten ∧
        ∀ a ∈ attempts, Store.IsAttempt a) ∧
      Store.Paired rows := by
  intro rows
  have h : Store.Paired rows := by
    refine events_afterAll (P := Store.Paired) (fun hc he h => h.course hc he) ?_ errands ?_
    · intro l b h
      exact h.filter fun q r hqr => by rw [hqr]
    · exact Store.paired_nil
  exact ⟨h.attempts, h⟩

end Intake
