import Intake.Proofs.Status.News

/-!
# Statuses of what was done more than once

Of news that is told over, a status counts nothing twice: it has the histories so many times over, and all
else as if the news had been told once.
-/
namespace Intake

/-- What an item of a history says, apart from its moment. -/
def HistoryItem.change (h : HistoryItem) : String × String := (h.type, h.status)

def ExtractorHistory.states (h : ExtractorHistory) : List ExtractorState := h.updates.map StatusUpdate.state

/-- How a status reads after everything that one tells was done `n` times. -/
structure BlobStatus.Repeats (n : Nat) (once again : BlobStatus) : Prop where
  start : again.start = once.start
  paths : again.paths = once.paths
  size : again.size = once.size
  sizes : again.sizes = once.sizes
  workspace : again.workspace = once.workspace
  mimeTypes : again.mimeTypes = once.mimeTypes
  errors : again.errors = once.errors
  stuck : again.stuck = once.stuck
  extractors : again.extractors.map ExtractorHistory.extractor = once.extractors.map ExtractorHistory.extractor
  current : again.extractors.map ExtractorHistory.current = once.extractors.map ExtractorHistory.current
  history : again.history.map HistoryItem.change = Lists.copies n (once.history.map HistoryItem.change)
  states : again.extractors.map ExtractorHistory.states =
    once.extractors.map fun x => Lists.copies n x.states

theorem ExtractorHistory.current_eq (x : ExtractorHistory) :
    x.current = x.states.getLast?.getD .unknown := by
  rw [current, states, List.getLast?_map]
  cases x.updates.getLast? <;> rfl

namespace Status

variable {b i : String} {ns : List News} {k : Nat} {zs : List (News × EventRow)}

theorem earliest_of_le {t : Timestamp} {es : List Event} (h : ∀ e ∈ es, t.instant ≤ e.moment.instant) :
    earliest t es = t := by
  induction es with
  | nil => rfl
  | cons e es ih =>
    have he : ¬e.moment.instant < t.instant := Int.not_lt.mpr (h e List.mem_cons_self)
    rw [earliest, List.foldl_cons, if_neg he]
    exact ih fun e he => h e (List.mem_cons_of_mem _ he)

theorem sizesOf_of_same {path : Option String} {size : Option Int} {rs : List Sighting} (hn : rs ≠ [])
    (h : ∀ r ∈ rs, r.path = path ∧ r.size = size) : sizesOf rs = [(path, size)] := by
  have hput (rs : List Sighting) (h : ∀ r ∈ rs, r.path = path ∧ r.size = size) :
      rs.foldl (fun sizes r => putSize r.path r.size sizes) [(path, size)] = [(path, size)] := by
    induction rs with
    | nil => rfl
    | cons r rs ih =>
      obtain ⟨⟨hp, hs⟩, hrest⟩ := List.forall_mem_cons.mp h
      rw [List.foldl_cons, putSize, hp, hs, if_pos rfl, ih hrest]
  cases rs with
  | nil => exact absurd rfl hn
  | cons r rs =>
    obtain ⟨⟨hp, hs⟩, hrest⟩ := List.forall_mem_cons.mp h
    rw [sizesOf, List.foldl_cons, putSize, hp, hs, hput rs hrest]

theorem firstDetail_append (name : String) (es es' : List Event) :
    firstDetail name (es ++ es') =
      (do match ← firstDetail name es with
          | some t => return some t
          | none => firstDetail name es') := by
  induction es with
  | nil => rfl
  | cons e es ih =>
    rw [List.cons_append, firstDetail, firstDetail, ih]
    cases e.detail name with
    | error f => rfl
    | ok v =>
      show (if v.truthy = true then _ else _) = ((if v.truthy = true then _ else _) >>= _)
      split
      · cases detailText v <;> rfl
      · rfl

theorem firstDetail_copies (name : String) {n : Nat} (hn : 0 < n) (es : List Event) :
    firstDetail name (Lists.copies n es) = firstDetail name es := by
  induction n with
  | zero => omega
  | succ n ih =>
    rw [Lists.copies_succ, firstDetail_append]
    cases hf : firstDetail name es with
    | error f => rfl
    | ok t =>
      cases t with
      | some t => rfl
      | none =>
        cases n with
        | zero => rfl
        | succ n => exact (ih (Nat.zero_lt_succ n)).trans hf

theorem firstDetail_stamped (name : String) (zs : List (News × EventRow)) :
    firstDetail name (zs.map (News.stamped b i)) =
      firstDetail name ((zs.map Prod.fst).map (News.event b i)) := by
  induction zs with
  | nil => rfl
  | cons z zs ih =>
    rw [List.map_cons, List.map_cons, List.map_cons, firstDetail, firstDetail, ih]
    rfl

theorem latestDetail_recounted (name : String) (hk : 0 < k) (hz : zs.map Prod.fst = Lists.copies k ns) :
    latestDetail name (zs.map (News.stamped b i)) = latestDetail name (ns.map (News.event b i)) := by
  have hr : (zs.reverse.map Prod.fst).map (News.event b i) =
      Lists.copies k (ns.map (News.event b i)).reverse := by
    rw [List.map_reverse, hz, List.map_reverse, Lists.map_copies, Lists.reverse_copies]
  rw [latestDetail, latestDetail, ← List.map_reverse, firstDetail_stamped, hr, firstDetail_copies name hk]

/-- What a status tells of news that the log holds `k` times over, from a first moment on, and of a blob that
was seen in one place only. -/
structure Recounts (b i : String) (ns : List News) (k : Nat) (first : Timestamp) (place : Option String)
    (bytes : Option Int) (t : BlobStatus) : Prop where
  start : t.start = first
  paths : t.paths = [place]
  size : t.size = bytes
  sizes : t.sizes = [(place, bytes)]
  workspace : latestDetail "workspaceName" (ns.map (News.event b i)) = .ok t.workspace
  mimeTypes : latestDetail "mimeTypes" (ns.map (News.event b i)) = .ok t.mimeTypes
  errors : t.errors = (ns.flatMap News.failures).eraseDups.map .ofPair
  stuck : t.stuck = false
  extractors : t.extractors.map ExtractorHistory.extractor = (ns.flatMap News.declared).eraseDups.map .text
  states : t.extractors.map ExtractorHistory.states =
    (ns.flatMap News.declared).eraseDups.map fun x => Lists.copies k (ns.filterMap (News.state? x))
  history : t.history.map HistoryItem.change =
    Lists.copies k (ns.map fun n => ((n.event b i).type, (n.event b i).status))

theorem flatMap_recounted {α : Type} (f : News → List α) (hz : zs.map Prod.fst = Lists.copies k ns) :
    (zs.flatMap fun z => f z.1) = Lists.copies k (ns.flatMap f) := by
  rw [← Lists.flatMap_copies, ← hz, List.flatMap_map]

theorem states_recounted (x : String) (hz : zs.map Prod.fst = Lists.copies k ns) :
    (updatesFor x zs).map StatusUpdate.state = Lists.copies k (ns.filterMap (News.state? x)) := by
  rw [map_state_updatesFor, hz, Lists.filterMap_copies]

/-- Every extractor that news declares, the news tells something of. -/
def Covers (ns : List News) : Prop :=
  ∀ x ∈ ns.flatMap News.declared, ns.filterMap (News.state? x) ≠ []

theorem historiesFrom_recounted (hk : 0 < k) (hz : zs.map Prod.fst = Lists.copies k ns) (hs : Covers ns) :
    (historiesFrom zs).map ExtractorHistory.extractor = (ns.flatMap News.declared).eraseDups.map .text ∧
      (historiesFrom zs).map ExtractorHistory.states =
        (ns.flatMap News.declared).eraseDups.map fun x => Lists.copies k (ns.filterMap (News.state? x)) := by
  rw [historiesFrom, flatMap_recounted News.declared hz, Lists.eraseDups_copies hk]
  constructor
  · rw [List.map_map]
    rfl
  · rw [List.map_map]
    apply List.map_congr_left
    intro x hx
    have hstates := states_recounted x hz
    have hne : updatesFor x zs ≠ [] := by
      intro hnil
      rw [hnil, List.map_nil] at hstates
      exact Lists.copies_ne_nil hk (hs x (List.mem_eraseDups.mp hx)) hstates.symm
    have hif : (if (updatesFor x zs).isEmpty = true then [⟨none, .unknown⟩] else updatesFor x zs) =
        updatesFor x zs := if_neg (by simpa using hne)
    rw [Function.comp_apply, ExtractorHistory.states, hif, hstates]

/-- The news of rows in the order of their moments, `k` times over, has a status that recounts it. -/
theorem exists_recounts (hk : 0 < k) (hs : Covers ns) {r : EventRow} {rows : List EventRow}
    (hw : (r :: rows).map EventRow.written = (Lists.copies k ns).map (News.event b i))
    (ht : ∀ t ∈ rows, r.time ≤ t.time) {place : Option String} {bytes : Option Int} {rs : List Sighting}
    (hn : rs ≠ []) (hrs : ∀ x ∈ rs, x.path = place ∧ x.size = bytes) :
    ∃ t, summary (some b) (some i) ((r :: rows).map EventRow.toEvent) rs false = .ok t ∧
      Recounts b i ns k r.toEvent.moment place bytes t := by
  obtain ⟨zs, hz, hes⟩ := exists_stamped hw
  have hzs : zs ≠ [] := by
    rintro rfl
    cases hes
  obtain ⟨t, hsum, hnews⟩ := summary_stamped (b := b) (i := i) hzs rs false
  obtain ⟨hextractors, herrors⟩ := hnews rfl
  have hp := parts_of_summary hsum
  obtain ⟨hnames, hstates⟩ := historiesFrom_recounted hk hz hs
  have hsizes := sizesOf_of_same hn hrs
  refine ⟨t, hes ▸ hsum, ?_⟩
  constructor
  · rw [← hes] at hp
    rw [hp.start _ rfl]
    apply earliest_of_le
    simpa using ht
  · rw [hp.paths, hsizes, List.map_singleton]
  · rw [hp.size, List.getLast?_eq_some_getLast hn, Option.bind_some]
    exact (hrs _ (List.getLast_mem hn)).2
  · rw [hp.sizes, hsizes]
  · rw [← latestDetail_recounted _ hk hz, hp.workspace]
  · rw [← latestDetail_recounted _ hk hz, hp.mimeTypes]
  · rw [herrors, flatMap_recounted News.failures hz, Lists.eraseDups_copies hk]
  · exact hp.stuck
  · rw [hextractors, hnames]
  · rw [hextractors, hstates]
  · rw [hp.history, List.map_map, List.map_map, ← Lists.map_copies, ← hz, List.map_map]
    rfl

/-- Two statuses that recount the same news, once and `k` times over, differ only in that. -/
theorem Recounts.repeats {first : Timestamp} {place : Option String} {bytes : Option Int}
    {once again : BlobStatus} (h : Recounts b i ns 1 first place bytes once) (hk : 0 < k)
    (h' : Recounts b i ns k first place bytes again) : once.Repeats k again := by
  have hcurrent (t : BlobStatus) : t.extractors.map ExtractorHistory.current =
      (t.extractors.map ExtractorHistory.states).map fun states => states.getLast?.getD .unknown := by
    rw [List.map_map]
    exact List.map_congr_left fun x _ => x.current_eq
  constructor
  · rw [h.start, h'.start]
  · rw [h.paths, h'.paths]
  · rw [h.size, h'.size]
  · rw [h.sizes, h'.sizes]
  · exact Except.ok.inj (h'.workspace.symm.trans h.workspace)
  · exact Except.ok.inj (h'.mimeTypes.symm.trans h.mimeTypes)
  · rw [h.errors, h'.errors]
  · rw [h.stuck, h'.stuck]
  · rw [h.extractors, h'.extractors]
  · rw [hcurrent, hcurrent, h.states, h'.states, List.map_map, List.map_map]
    apply List.map_congr_left
    intro x _
    simp only [Function.comp_apply, Lists.getLast?_copies hk, Lists.copies_one]
  · rw [h.history, h'.history, Lists.copies_one]
  · have hmap : (once.extractors.map fun x => Lists.copies k x.states) =
        (once.extractors.map ExtractorHistory.states).map (Lists.copies k) := by
      rw [List.map_map]
      rfl
    rw [hmap, h.states, h'.states, List.map_map]
    apply List.map_congr_left
    intro x _
    rw [Function.comp_apply, Lists.copies_one]

end Status
end Intake
