import Intake.Proofs.Dispatch.News
import Intake.Proofs.Status.Summary

/-!
# Statuses from news

A blob of which the store holds nothing but the news of dispatches always has a status, and the status
tells the news.
-/
namespace Intake

namespace News

/-- Stored news: the event that tells it, with the moment and the number of a row. -/
def stamped (b i : String) (z : News × EventRow) : Event :=
  { z.1.event b i with time := some (.withoutOffset z.2.time), id := some (Int.ofNat z.2.id) }

def declared : News → List String
  | detected _ extractors _ => extractors
  | ran .. => []

/-- The state that an extractor reached according to news. -/
def state? (extractor : String) : News → Option ExtractorState
  | detected .. => none
  | ran x s _ => if x = extractor then some (.ofName s.name) else none

def failures : News → List (String × Option String)
  | ran _ _ (some f) => [(f.message, f.stackTrace)]
  | _ => []

end News

def EventError.ofPair (e : String × Option String) : EventError := ⟨e.1, .ofText? e.2⟩

namespace Status

variable {b i : String}

theorem same_text (x y : String) : (Value.text x).same (.text y) = (x == y) := by
  rw [Value.same, Value.canonical, Value.canonical, Bool.eq_iff_iff]
  simp

theorem same_ofText? (x y : Option String) : (Value.ofText? x).same (.ofText? y) = (x == y) := by
  cases x with
  | none => cases y <;> simp [Value.same, Value.canonical, Value.ofText?]
  | some x =>
    cases y with
    | none => simp [Value.same, Value.canonical, Value.ofText?]
    | some y => exact same_text x y

theorem same_ofPair (d e : String × Option String) :
    (EventError.ofPair d).same (.ofPair e) = (d == e) := by
  rw [EventError.same, EventError.ofPair, EventError.ofPair, same_ofText?]
  rfl

theorem exists_stamped {rows : List EventRow} {ns : List News}
    (h : rows.map EventRow.written = ns.map (News.event b i)) :
    ∃ zs : List (News × EventRow), zs.map Prod.fst = ns ∧
      rows.map EventRow.toEvent = zs.map (News.stamped b i) := by
  induction rows generalizing ns with
  | nil =>
    rw [List.map_nil, List.nil_eq, List.map_eq_nil_iff] at h
    exact ⟨[], h.symm, rfl⟩
  | cons r rows ih =>
    cases ns with
    | nil => cases h
    | cons n ns =>
      obtain ⟨hr, h⟩ := List.cons.inj h
      obtain ⟨zs, rfl, hz⟩ := ih h
      refine ⟨(n, r) :: zs, rfl, ?_⟩
      have hs : r.toEvent = News.stamped b i (n, r) := by
        rw [News.stamped, ← hr]
        rfl
      rw [List.map_cons, List.map_cons, hs, hz]

theorem detail_detected (name mimeType : String) (extractors : List Value) (workspace : Option String) :
    (Event.mimeTypeDetected (some b) (some i) mimeType extractors workspace).detail name =
      .ok (if name = "extractors" then .list extractors else if name = "mimeTypes" then .text mimeType
        else if name = "workspaceName" then .ofText? (workspace.filter (· != "")) else .null) := by
  simp only [Event.detail, Event.mimeTypeDetected, Value.member]
  congr 1
  rw [List.cons_append, List.cons_append, List.nil_append, Lists.lookup_cons_eq_ite, Lists.lookup_cons_eq_ite,
    apply_ite (Option.getD · Value.null), apply_ite (Option.getD · Value.null)]
  congr 2
  cases workspace with
  | none => exact (ite_self _).symm
  | some w =>
    by_cases h : w = ""
    · subst h
      exact (ite_self _).symm
    · rw [Option.filter_some, if_pos (bne_iff_ne.mpr h)]
      simp only [if_neg h, Lists.lookup_cons_eq_ite, List.lookup_nil, Value.ofText?]
      split <;> rfl

theorem detail_ran (name x : String) (s : EventStatus) (es : List EventError) :
    (Event.runExtractor (some b) (some i) x s es).detail name =
      .ok (if name = "extractorName" then .text x
        else if name = "errors" ∧ es ≠ [] then .list (es.map EventError.toValue) else .null) := by
  simp only [Event.detail, Event.runExtractor, Value.member]
  congr 1
  rw [List.cons_append, List.nil_append, Lists.lookup_cons_eq_ite, apply_ite (Option.getD · Value.null)]
  congr 1
  cases es with
  | nil => exact (if_neg fun h => h.2 rfl).symm
  | cons e es =>
    rw [List.isEmpty_cons, if_neg Bool.false_ne_true, Lists.lookup_cons_eq_ite, List.lookup_nil]
    by_cases h : name = "errors"
    · rw [if_pos h, if_pos ⟨h, List.cons_ne_nil _ _⟩, Option.getD_some]
    · rw [if_neg h, if_neg fun h' => h h'.1, Option.getD_none]

theorem distinct_texts (xs : List String) :
    Value.distinct (xs.map .text) = xs.eraseDups.map .text := by
  have hs : (fun x y => (Value.text x).same (.text y)) = fun x y => x == y :=
    funext fun x => funext (same_text x)
  rw [distinct_eq, Lists.eraseDupsBy_map, hs]
  rfl

theorem distinctErrors_pairs (es : List (String × Option String)) :
    distinctErrors (es.map .ofPair) = es.eraseDups.map .ofPair := by
  have hs : (fun d e => (EventError.ofPair d).same (.ofPair e)) = fun d e => d == e :=
    funext fun d => funext (same_ofPair d)
  rw [distinctErrors_eq, Lists.eraseDupsBy_map, hs]
  rfl

def isDetected (b i : String) (z : News × EventRow) : Bool :=
  isOfType .mimeTypeDetected (News.stamped b i z)

theorem declared_of_isDetected {z : News × EventRow} (h : isDetected b i z = true) :
    (do (← (News.stamped b i z).detail "extractors").itemsIfGiven) = .ok (z.1.declared.map .text) := by
  obtain ⟨n, r⟩ := z
  cases n with
  | ran x s f => cases h
  | detected m xs w =>
    show (do (← (Event.mimeTypeDetected (some b) (some i) m (xs.map .text) w).detail _).itemsIfGiven) = _
    rw [detail_detected, if_pos rfl]
    cases xs <;> rfl

theorem flatten_declared (zs : List (News × EventRow)) :
    ((zs.filter (isDetected b i)).map fun z => z.1.declared.map Value.text).flatten =
      (zs.flatMap fun z => z.1.declared).map .text := by
  induction zs with
  | nil => rfl
  | cons z zs ih =>
    obtain ⟨n, r⟩ := z
    cases n with
    | ran x s f => exact ih
    | detected m xs w =>
      rw [List.flatMap_cons, List.map_append, ← ih]
      rfl

theorem namedExtractors_stamped (zs : List (News × EventRow)) :
    namedExtractors (zs.map (News.stamped b i)) =
      .ok ((zs.flatMap fun z => z.1.declared).eraseDups.map .text) := by
  have hf : (zs.map (News.stamped b i)).filter (isOfType .mimeTypeDetected) =
      (zs.filter (isDetected b i)).map (News.stamped b i) := List.filter_map
  have hm := Lists.mapM_map_ok (l := zs.filter (isDetected b i)) (g := News.stamped b i)
    (f := fun e => do (← e.detail "extractors").itemsIfGiven) (k := fun z => z.1.declared.map .text)
    fun z hz => declared_of_isDetected (List.mem_filter.mp hz).2
  rw [namedExtractors, hf, hm, ← distinct_texts, ← flatten_declared]
  rfl

theorem updateFor_stamped (x : String) (z : News × EventRow) :
    updateFor (.text x) (News.stamped b i z) =
      .ok ((z.1.state? x).map fun s => ⟨some (.withoutOffset z.2.time), s⟩) := by
  obtain ⟨n, r⟩ := z
  cases n with
  | detected m xs w => rfl
  | ran y s f =>
    show (Except.ok (if (Value.text y).same (.text x) then some ⟨some (.withoutOffset r.time), .ofName s.name⟩
      else none) : Except Fault (Option StatusUpdate)) = _
    rw [same_text, News.state?]
    by_cases hx : y = x
    · rw [if_pos (by simpa using hx), if_pos hx, Option.map_some]
    · rw [if_neg (by simpa using hx), if_neg hx, Option.map_none]

/-- The states of an extractor that stored news tells, each with its moment. -/
def updatesFor (x : String) (zs : List (News × EventRow)) : List StatusUpdate :=
  zs.filterMap fun z => (z.1.state? x).map fun s => ⟨some (.withoutOffset z.2.time), s⟩

theorem map_state_updatesFor (x : String) (zs : List (News × EventRow)) :
    (updatesFor x zs).map StatusUpdate.state = (zs.map Prod.fst).filterMap (News.state? x) := by
  rw [updatesFor, List.map_filterMap, List.filterMap_map]
  apply List.filterMap_congr
  intro z _
  cases hz : z.1.state? x <;> simp [hz]

theorem historyOf_stamped (x : String) (zs : List (News × EventRow)) :
    historyOf (zs.map (News.stamped b i)) (.text x) = .ok ⟨.text x,
      if (updatesFor x zs).isEmpty then [⟨none, .unknown⟩] else updatesFor x zs⟩ := by
  have hm := Lists.mapM_map_ok (l := zs) fun z _ => updateFor_stamped (b := b) (i := i) x z
  have hu : (zs.map fun z => (z.1.state? x).map fun s =>
      (⟨some (.withoutOffset z.2.time), s⟩ : StatusUpdate)).filterMap (fun u => u) = updatesFor x zs := by
    rw [List.filterMap_map]
    rfl
  rw [historyOf, hm, ← hu]
  rfl

theorem distinguishableErrors_stamped (z : News × EventRow) :
    distinguishableErrors (News.stamped b i z) = .ok (z.1.failures.map EventError.ofPair) := by
  obtain ⟨n, r⟩ := z
  cases n with
  | detected m xs w =>
    have h : (News.stamped b i (.detected m xs w, r)).errors = .ok [] := by
      show (Event.mimeTypeDetected (some b) (some i) m (xs.map .text) w).errors = _
      rw [Event.errors, detail_detected]
      rfl
    rw [distinguishableErrors, h]
    rfl
  | ran y s f =>
    have h : (News.stamped b i (.ran y s f, r)).errors = .ok (f.map Dispatch.errorOf).toList :=
      Event.errors_runExtractor (some b) (some i) y s (f.map Dispatch.errorOf).toList
    rw [distinguishableErrors, h]
    obtain _ | ⟨k, d, _ | t⟩ := f <;> rfl

theorem errorsOf_stamped (zs : List (News × EventRow)) :
    errorsOf (zs.map (News.stamped b i)) =
      .ok ((zs.flatMap fun z => z.1.failures).eraseDups.map .ofPair) := by
  have hm := Lists.mapM_map_ok (l := zs) fun z _ => distinguishableErrors_stamped (b := b) (i := i) z
  have hf : (zs.map fun z => z.1.failures.map EventError.ofPair).flatten =
      (zs.flatMap fun z => z.1.failures).map .ofPair := by
    rw [← List.flatMap_def, List.map_flatMap]
  rw [errorsOf, hm, ← distinctErrors_pairs, ← hf]
  rfl

theorem firstDetail_of_texts {name : String} {es : List Event}
    (h : ∀ e ∈ es, ∃ t : Option String, e.detail name = .ok (.ofText? t)) :
    ∃ t, firstDetail name es = .ok t := by
  induction es with
  | nil => exact ⟨none, rfl⟩
  | cons e es ih =>
    obtain ⟨t, ht⟩ := h e List.mem_cons_self
    obtain ⟨u, hu⟩ := ih fun e he => h e (List.mem_cons_of_mem _ he)
    rw [firstDetail, ht]
    show ∃ t', (if (Value.ofText? t).truthy = true then _ else firstDetail name es) = Except.ok t'
    cases t with
    | none => exact ⟨u, hu⟩
    | some t =>
      split
      · exact ⟨some t, rfl⟩
      · exact ⟨u, hu⟩

theorem text_of_detected (b i : String) {name : String} (h : name = "workspaceName" ∨ name = "mimeTypes")
    (m : String) (xs : List Value) (w : Option String) :
    ∃ t, (Event.mimeTypeDetected (some b) (some i) m xs w).detail name = .ok (.ofText? t) := by
  rw [detail_detected]
  rcases h with rfl | rfl
  · exact ⟨_, rfl⟩
  · exact ⟨some m, rfl⟩

theorem text_of_ran (b i : String) {name : String} (h : name = "workspaceName" ∨ name = "mimeTypes")
    (x : String) (s : EventStatus) (es : List EventError) :
    ∃ t, (Event.runExtractor (some b) (some i) x s es).detail name = .ok (.ofText? t) := by
  rw [detail_ran]
  rcases h with rfl | rfl
  · exact ⟨none, by simp [Value.ofText?]⟩
  · exact ⟨none, by simp [Value.ofText?]⟩

theorem latestDetail_stamped (zs : List (News × EventRow)) {name : String}
    (h : name = "workspaceName" ∨ name = "mimeTypes") :
    ∃ t, latestDetail name (zs.map (News.stamped b i)) = .ok t := by
  apply firstDetail_of_texts
  intro e he
  obtain ⟨⟨n, r⟩, -, rfl⟩ := List.mem_map.mp (List.mem_reverse.mp he)
  cases n with
  | detected m xs w => exact text_of_detected b i h m (xs.map .text) w
  | ran x s f => exact text_of_ran b i h x s (f.map Dispatch.errorOf).toList

def historiesFrom (zs : List (News × EventRow)) : List ExtractorHistory :=
  (zs.flatMap fun z => z.1.declared).eraseDups.map fun x =>
    ⟨.text x, if (updatesFor x zs).isEmpty then [⟨none, .unknown⟩] else updatesFor x zs⟩

theorem historiesOf_stamped (zs : List (News × EventRow)) :
    historiesOf (zs.map (News.stamped b i)) = .ok (historiesFrom zs) := by
  rw [historiesOf, namedExtractors_stamped]
  exact Lists.mapM_map_ok fun x _ => historyOf_stamped x zs

/-- Stored news always has a status. Unless the blob is stuck, it tells the news. -/
theorem summary_stamped {zs : List (News × EventRow)} (h : zs ≠ []) (rs : List Sighting) (stuck : Bool) :
    ∃ t, summary (some b) (some i) (zs.map (News.stamped b i)) rs stuck = .ok t ∧
      (stuck = false → t.extractors = historiesFrom zs ∧
        t.errors = (zs.flatMap fun z => z.1.failures).eraseDups.map .ofPair) := by
  obtain ⟨workspace, hw⟩ := latestDetail_stamped (b := b) (i := i) zs (.inl rfl)
  obtain ⟨mimeTypes, hm⟩ := latestDetail_stamped (b := b) (i := i) zs (.inr rfl)
  have hh := historiesOf_stamped (b := b) (i := i) zs
  have he := errorsOf_stamped (b := b) (i := i) zs
  cases zs with
  | nil => exact absurd rfl h
  | cons z zs =>
    rw [List.map_cons] at *
    cases stuck with
    | true => exact ⟨_, rfl, nofun⟩
    | false =>
      rw [summary, hw, hm, hh, he]
      exact ⟨_, rfl, fun _ => ⟨rfl, rfl⟩⟩

end Status
end Intake
