import Intake.Proofs.Extractor.Stops

/-!
# Faults of the search index

An image whose text is read in every language ends as the search index answers. A fault of the search index
is raised as it is, unless it says itself that time ran out: that one is told as a timeout.
-/
namespace Intake

theorem ToolRun.EndsWith.unique {p : ToolRun} {c d : Int} (h : p.EndsWith c) (h' : p.EndsWith d) : c = d := by
  obtain ⟨r, hr, hc⟩ := endsWith_iff.mp h
  obtain ⟨r', hr', hd⟩ := endsWith_iff.mp h'
  have : r = r' := by simpa [hr] using hr'
  rw [← hc, ← hd, this]

theorem ImageText.Stop.not_endsWith {α : Type} {p : ToolRun} {printed : List String}
    {r : Except Fault (Outcome α)} (h : Stop p printed r) : ¬p.EndsWith 0 := by
  intro hz
  cases h with
  | terminated ht => exact absurd (ht.unique hz) (by decide)
  | crashed hc hne => exact hne (hc.unique hz)
  | unstarted hs he =>
    obtain ⟨r, hr, _⟩ := ToolRun.endsWith_iff.mp hz
    simp [ToolRun.result, hs, he] at hr
  | unread hs ho =>
    obtain ⟨r, hr, _⟩ := ToolRun.endsWith_iff.mp hz
    simp [ToolRun.result, hs, ho] at hr

namespace Extractor.Image

/-- The text of an image is read in every language that the extraction comes to. It comes to the next one if
the search index takes the text. -/
inductive AllRead (s : Setup) (b : Blob) (image : FilePath) : List String → Outside × Transcript → Prop
  | nil (st : Outside × Transcript) : AllRead s b image [] st
  | cons {language : String} {rest : List String} {st : Outside × Transcript} {w₁ : Outside} {t₁ : Transcript}
      {text : Option String}
      (hr : (ImageText.recognise s.tool language image (s.sink b)).run st = (.ok (.success text), w₁, t₁))
      (hn : ∀ w₂, (index ⟨b.id, text, language⟩).run w₁ = (.ok true, w₂) → AllRead s b image rest (w₂, t₁)) :
      AllRead s b image (language :: rest) st

/-- How an extraction ends whose first `k` texts are taken, from the reply to the next one. -/
inductive Answered (s : Setup) (b : Blob) (languages : List String) (k : Nat) (reply : Reply) :
    Except Fault (Outcome Value) → Prop
  | taken (hk : k = languages.length) : Answered s b languages k reply (.ok (.success .null))
  | raised {e : Fault} (hk : k < languages.length) (hr : reply = .fails e) (he : e.kind ≠ .timeout) :
      Answered s b languages k reply (.error e)
  | late {language : String} (hk : languages[k]? = some language)
      (hr : reply = .silence ∨ ∃ e, reply = .fails e ∧ e.kind = .timeout) :
      Answered s b languages k reply (.ok (.failed (s.indexTimeoutFailure b language)))

/-- The search index takes the first `k` texts. It is not asked again after a reply that ends the extraction. -/
structure Faced (s : Setup) (b : Blob) (languages : List String) (w w' : Outside)
    (r : Except Fault (Outcome Value)) (k : Nat) : Prop where
  taken : ∀ n < k, w.index.getD n .done = .done
  documents : w'.documents.length = w.documents.length + k
  asked : w'.index = w.index.drop (min (k + 1) languages.length)
  ending : Answered s b languages k (w.index.getD k .done) r

variable {s : Setup} {b : Blob} {image : FilePath} {language : String} {languages rest : List String}
  {w w' : Outside} {r : Except Fault (Outcome Value)} {k : Nat}

theorem Answered.next {reply : Reply} (h : Answered s b rest k reply r) :
    Answered s b (language :: rest) (k + 1) reply r := by
  cases h with
  | taken hk => exact .taken (by simp [hk])
  | raised hk hr he => exact .raised (by simpa using hk) hr he
  | late hk hr => exact .late (by simpa using hk) hr

theorem Answered.le {reply : Reply} (h : Answered s b languages k reply r) : k ≤ languages.length := by
  cases h with
  | taken hk => exact hk.le
  | raised hk => exact hk.le
  | late hk => exact (List.getElem?_eq_some_iff.mp hk).1.le

theorem Answered.ne_done {reply : Reply} (h : Answered s b languages k reply r) (hk : k < languages.length) :
    reply ≠ .done := by
  rintro rfl
  cases h with
  | taken h => exact absurd h hk.ne
  | raised _ hr => cases hr
  | late _ hr => simp at hr

/-- The first reply that takes no text is where the extraction ends. -/
theorem Faced.eq_of_first {j : Nat} (h : Faced s b languages w w' r k) (hj : j < languages.length)
    (ht : ∀ n < j, w.index.getD n .done = .done) (hn : w.index.getD j .done ≠ .done) : k = j := by
  rcases Nat.lt_trichotomy k j with hlt | heq | hgt
  · exact absurd (ht k hlt) (h.ending.ne_done (hlt.trans hj))
  · exact heq
  · exact absurd (h.taken j hgt) hn

theorem Faced.eq_error {j : Nat} {e : Fault} (h : Faced s b languages w w' r k) (hj : j < languages.length)
    (ht : ∀ n < j, w.index.getD n .done = .done) (hr : w.index.getD j .done = .fails e) (he : e.kind ≠ .timeout) :
    k = j ∧ r = .error e := by
  obtain rfl := h.eq_of_first hj ht (by rw [hr]; exact nofun)
  refine ⟨rfl, ?_⟩
  cases h.ending with
  | taken hk => exact absurd hk hj.ne
  | raised _ hr' =>
    cases hr.symm.trans hr'
    rfl
  | late _ hr' =>
    rcases hr' with hr' | ⟨e', hr', he'⟩
    · cases hr.symm.trans hr'
    · cases hr.symm.trans hr'
      exact absurd he' he

theorem Faced.timeout_iff (h : Faced s b languages w w' r k) :
    (∃ f, r = .ok (.failed f) ∧ f.kind = .indexTimeout) ↔
      ∃ j < languages.length, (∀ n < j, w.index.getD n .done = .done) ∧
        (w.index.getD j .done = .silence ∨ ∃ e, w.index.getD j .done = .fails e ∧ e.kind = .timeout) := by
  constructor
  · rintro ⟨f, rfl, -⟩
    cases h.ending with
    | late hlanguage hr => exact ⟨k, (List.getElem?_eq_some_iff.mp hlanguage).1, h.taken, hr⟩
  · rintro ⟨j, hj, ht, hr⟩
    have hne : w.index.getD j .done ≠ .done := by
      rcases hr with hr | ⟨e, hr, -⟩
      · rw [hr]
        exact nofun
      · rw [hr]
        exact nofun
    obtain rfl := h.eq_of_first hj ht hne
    cases h.ending with
    | taken hk => exact absurd hk hj.ne
    | raised _ hr' he =>
      rcases hr with hr | ⟨e', hr, he'⟩
      · cases hr'.symm.trans hr
      · cases hr'.symm.trans hr
        exact absurd he' he
    | late => exact ⟨_, rfl, rfl⟩

theorem answered_of_answer {reply : Reply} (h : reply ≠ .done) :
    Answered s b (language :: rest) 0 reply
      ((answer reply).map fun _ => .failed (s.indexTimeoutFailure b language)) := by
  cases reply with
  | done => exact absurd rfl h
  | silence => exact .late rfl (.inl rfl)
  | fails e =>
    by_cases he : e.kind = .timeout
    · rw [answer, if_pos he]
      exact .late rfl (.inr ⟨e, rfl, he⟩)
    · rw [answer, if_neg he]
      exact .raised (by simp) rfl he

theorem Faced.next {w₁ : Outside} (hi : w₁.index = w.index.tail)
    (hd : w₁.documents.length = w.documents.length + 1) (ht : w.index.headD .done = .done)
    (h : Faced s b rest w₁ w' r k) : Faced s b (language :: rest) w w' r (k + 1) := by
  have hget (n : Nat) : w.index.getD (n + 1) .done = w₁.index.getD n .done := by
    rw [hi, Lists.getD_succ]
  constructor
  · intro n hn
    cases n with
    | zero => rwa [← List.headD_eq_getD]
    | succ n =>
      rw [hget]
      exact h.taken n (by omega)
  · rw [h.documents, hd]
    omega
  · rw [h.asked, hi, List.drop_tail, List.length_cons]
    congr 1
    omega
  · rw [hget]
    exact h.ending.next

theorem recognise_index {text : Except Fault (Outcome (Option String))} {st st₁ : Outside × Transcript}
    (hr : (ImageText.recognise s.tool language image (s.sink b)).run st = (text, st₁)) :
    st₁.1.documents = st.1.documents ∧ st₁.1.index = st.1.index := by
  have hv := recognise_facing s b image language st
  rw [hr] at hv
  obtain ⟨hview, hindex⟩ := Prod.mk.inj hv
  exact ⟨congrArg Prod.fst (hview.trans (view_begun _ _)), hindex⟩

theorem languages_faced {st : Outside × Transcript} (h : AllRead s b image languages st) :
    ∃ k, Faced s b languages st.1 ((s.languages b image languages).run st).2.1
      ((s.languages b image languages).run st).1 k := by
  induction h with
  | nil st => exact ⟨0, by simp, by simp [Setup.languages], by simp [Setup.languages], .taken rfl⟩
  | @cons language rest st w₁ t₁ text hr hn ih =>
    obtain ⟨hdocuments, hindex⟩ := recognise_index hr
    rw [Setup.languages, Action.run_bind_of_ok hr]
    dsimp only at hdocuments hindex ⊢
    by_cases hd : w₁.index.headD .done = .done
    · let d : Document := ⟨b.id, text, language⟩
      let w₂ := { w₁ with index := w₁.index.tail }.log (.indexed d)
      have hi : (index d).run w₁ = (.ok true, w₂) := by
        rw [index_eq, if_pos hd, hd]
        rfl
      obtain ⟨k, hk⟩ := ih w₂ hi
      rw [Action.run_bind, Action.run_first, hi]
      refine ⟨k + 1, hk.next (congrArg List.tail hindex) ?_ (hindex ▸ hd)⟩
      rw [Outside.documents_log, ← hdocuments]
      simp [Outside.documents]
    · rw [run_of_not_taken hd]
      refine ⟨0, by simp, congrArg List.length hdocuments, ?_, ?_⟩
      · simp [hindex]
      · rw [← List.headD_eq_getD, ← hindex]
        exact answered_of_answer hd

theorem allRead_of_lenient (languages : List String) {st : Outside × Transcript} (hl : st.1.Lenient)
    (hp : ∀ n, (st.1.runs.getD n .quiet).EndsWith 0) : AllRead s b image languages st := by
  induction languages generalizing st with
  | nil => exact .nil st
  | cons language rest ih =>
    obtain ⟨o, ⟨w₁, t₁⟩, hr, ho, _, hl₁, hv, _⟩ := recognise_of_lenient s b image language hl
    have hz : (st.1.runs.headD .quiet).EndsWith 0 := by
      rw [List.headD_eq_getD]
      exact hp 0
    rw [view_begun] at hv
    have hruns := (of_view hv).2.1
    rcases ho with ⟨_, rfl⟩ | hstop
    · apply AllRead.cons hr
      intro w₂ hi
      rw [index_eq] at hi
      have hdone := answer_eq_true_iff.mp (congrArg Prod.fst hi)
      have hw := congrArg Prod.snd hi
      rw [if_pos hdone] at hw
      subst hw
      apply ih
      · exact hl₁
      · intro n
        have hn := hp (n + 1)
        rwa [Lists.getD_succ, ← hruns] at hn
    · exact absurd hz hstop.not_endsWith

/-- Faults of the search index are not hidden. The first one that does not say that time ran out is raised, and
nothing is asked after it. A timeout is told only of a search index that did not come back or that said itself
that time ran out. -/
theorem extract_surfaces_index {s : Setup} {b : Blob} {image : FilePath} {p : Params} {w : Outside}
    (hl : p.languages ≠ []) (h : AllRead s b image p.languages (w, .empty)) :
    let final := (s.extract b image p).run w
    (∀ k e, k < p.languages.length → (∀ n < k, w.index.getD n .done = .done) →
      w.index.getD k .done = .fails e → e.kind ≠ .timeout →
        final.1 = .error e ∧ final.2.documents.length = w.documents.length + k ∧
          final.2.index = w.index.drop (k + 1)) ∧
    ((∃ f, final.1 = .ok (.failed f) ∧ f.kind = .indexTimeout) ↔
      ∃ k < p.languages.length, (∀ n < k, w.index.getD n .done = .done) ∧
        (w.index.getD k .done = .silence ∨ ∃ e, w.index.getD k .done = .fails e ∧ e.kind = .timeout)) := by
  intro final
  obtain ⟨k, hk⟩ := languages_faced h
  have hfinal := run_extract hl s b image w
  refine ⟨fun j e hj ht hr he => ?_, ?_⟩
  · obtain ⟨rfl, hraised⟩ := hk.eq_error hj ht hr he
    have hasked := hk.asked
    rw [Nat.min_eq_left hj] at hasked
    simp only [final, hfinal]
    exact ⟨hraised, hk.documents, hasked⟩
  · simp only [final, hfinal]
    exact hk.timeout_iff

/-- The second document is refused. The note about a line that is printed is refused as well, and dropped. -/
theorem extract_surfaces_index_of_refusal :
    let b : Blob := ⟨"b", "image/png", 1, by decide⟩
    let p : Params := ⟨"i", ["eng", "deu", "fra"], none, none⟩
    let w : Outside := { Outside.calm with
      runs := [⟨0, "page\n".toUTF8.toList, "one\n".toUTF8.toList, none, none⟩]
      index := [.done, .fails (.raised .permission "full")]
      notifier := [.fails (.raised .storageWrite "down")] }
    let final := ((Setup.standard true).extract b (.ofString "/f") p).run w
    AllRead (.standard true) b (.ofString "/f") p.languages (w, .empty) ∧
      final.1 = .error (.raised .permission "full") ∧ final.2.documents.length = 1 := by
  intro b p w final
  have hl : w.Lenient := by
    intro e he
    cases List.mem_singleton.mp he
    rfl
  have hp (n : Nat) : (w.runs.getD n .quiet).EndsWith 0 := by
    match n with
    | 0 => exact .exited rfl rfl (by decide)
    | _ + 1 => exact ToolRun.endsWith_quiet
  have h : AllRead (.standard true) b (.ofString "/f") p.languages (w, .empty) := allRead_of_lenient _ hl hp
  have hone : ∀ n < 1, w.index.getD n .done = .done := by decide
  have hraised := (extract_surfaces_index (by decide) h).1
  obtain ⟨hr, hd, _⟩ := hraised 1 _ (by decide) hone rfl (by decide)
  exact ⟨h, hr, hd⟩

/-- A search index that is asked in time and raises a fault of its own is told as one that did not come back. -/
theorem not_surfaces_of_own_timeout :
    let b : Blob := ⟨"b", "image/png", 1, by decide⟩
    let p : Params := ⟨"i", ["eng"], none, none⟩
    let w : Outside := { Outside.calm with
      runs := [⟨0, "page\n".toUTF8.toList, [], none, none⟩]
      index := [.fails (.raised .timeout "late")] }
    let final := ((Setup.standard false).extract b (.ofString "/f") p).run w
    AllRead (.standard false) b (.ofString "/f") p.languages (w, .empty) ∧ Reply.silence ∉ w.index ∧
      final.1 ≠ .error (.raised .timeout "late") ∧
      ∃ f, final.1 = .ok (.failed f) ∧ f.kind = .indexTimeout := by
  intro b p w final
  have hl : w.Lenient := nofun
  have hp (n : Nat) : (w.runs.getD n .quiet).EndsWith 0 := by
    match n with
    | 0 => exact .exited rfl rfl (by decide)
    | _ + 1 => exact ToolRun.endsWith_quiet
  have hf : final.1 = .ok (.failed ((Setup.standard false).indexTimeoutFailure b "eng")) := by decide +kernel
  refine ⟨allRead_of_lenient _ hl hp, by decide, ?_, _, hf, rfl⟩
  rw [hf]
  exact nofun

end Extractor.Image
end Intake
