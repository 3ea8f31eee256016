import Intake.Dispatch
import Intake.Proofs.EventLog.Writes

/-!
# The course of a dispatch

A dispatch is a list of deeds: writes that the log took, writes that it refused, and extractors that came
back. Which lists are possible is said here without the program, one attempt at a time.
-/
namespace Intake.Dispatch

variable {σ : Type} {log : EventLog σ} {b : Blob} {path : FilePath} {p : Params} {x : Extractor}

/-- One thing that a dispatch does. -/
inductive Deed where
  | stored (e : Event)
  | refused (e : Event) (f : Fault)
  | ended (x : Extractor) (r : Except Fault (Outcome Value))

namespace Deed

def stored? : Deed → Option Event
  | stored e => some e
  | _ => none

def invoked? : Deed → Option Extractor
  | ended x _ => some x
  | _ => none

def refused? : Deed → Option Event
  | refused e _ => some e
  | _ => none

/-- What a deed does to the log and the outside. -/
def Does (log : EventLog σ) (b : Blob) (path : FilePath) (p : Params) :
    Deed → σ × Outside → σ × Outside → Prop
  | stored e, (s, w), (s', w') => (log.insertEvent e).run s = (.ok (), s') ∧ w' = w
  | refused e f, (s, w), (s', w') => (log.insertEvent e).run s = (.error f, s') ∧ w' = w
  | ended x r, (s, w), (s', w') => (x.extract b path p).run (w.log (.invoked x.name)) = (r, w') ∧ s' = s

end Deed

inductive Performed (log : EventLog σ) (b : Blob) (path : FilePath) (p : Params) :
    List Deed → σ × Outside → σ × Outside → Prop
  | nil (st : σ × Outside) : Performed log b path p [] st st
  | cons {d : Deed} {ds : List Deed} {st st₁ st₂ : σ × Outside} :
      d.Does log b path p st st₁ → Performed log b path p ds st₁ st₂ →
      Performed log b path p (d :: ds) st st₂

theorem Performed.append {ds ds' : List Deed} {st st₁ st₂ : σ × Outside}
    (h : Performed log b path p ds st st₁) (h' : Performed log b path p ds' st₁ st₂) :
    Performed log b path p (ds ++ ds') st st₂ := by
  induction h with
  | nil st => exact h'
  | cons hd _ ih => exact .cons hd (ih h')

theorem Performed.single {d : Deed} {st st' : σ × Outside} (h : d.Does log b path p st st') :
    Performed log b path p [d] st st' :=
  .cons h (.nil st')

/-- The outcome that the result of an extractor amounts to. A fault of the log, a missing parameter and a
demand to stop amount to none. -/
inductive Settles : Except Fault (Outcome Value) → Outcome Value → Prop
  | returned (o : Outcome Value) : Settles (.ok o) o
  | unforeseen {f : Fault} (hm : f.kind ≠ .missingParameter) (hs : f.kind.isStorage = false)
      (ho : f.kind.isOrdinary = true) :
      Settles (.error f) (.failed ⟨.unexpected, if f.message = "" then f.kind.name else f.message,
        some (Failure.traceOf f)⟩)

/-- The event that tells how an attempt ended. An interrupted one has none. -/
def closing? (b : Blob) (p : Params) (name : String) : Outcome Value → Option Event
  | .success _ => some (ran b p name .success [])
  | .interrupted _ => none
  | .failed f => some (ran b p name .failure [errorOf f])

/-- The event that closes an attempt for want of a parameter. -/
def unconfigured (b : Blob) (p : Params) (name : String) (f : Fault) : Event :=
  ran b p name .failure [⟨f.message, .null⟩]

/-- How the attempt of one extractor can go, and how it ends. The log may refuse the start, and then the
extractor does not run; it may refuse the end. A missing parameter is told to the log before it leaves. -/
inductive Attempt (b : Blob) (p : Params) (x : Extractor) :
    List Deed → Except Fault (Outcome Value) → Prop
  | unstarted (f : Fault) : Attempt b p x [.refused (ran b p x.name .started []) f] (.error f)
  | interrupted (reason : String) :
      Attempt b p x [.stored (ran b p x.name .started []), .ended x (.ok (.interrupted reason))]
        (.ok (.interrupted reason))
  | closed {r : Except Fault (Outcome Value)} {o : Outcome Value} {e : Event} (h : Settles r o)
      (hc : closing? b p x.name o = some e) :
      Attempt b p x [.stored (ran b p x.name .started []), .ended x r, .stored e] (.ok o)
  | unclosed {r : Except Fault (Outcome Value)} {o : Outcome Value} {e : Event} (h : Settles r o)
      (hc : closing? b p x.name o = some e) (f : Fault) :
      Attempt b p x [.stored (ran b p x.name .started []), .ended x r, .refused e f] (.error f)
  | left {f : Fault} (h : f.kind.isStorage = true ∨ f.kind.isOrdinary = false) :
      Attempt b p x [.stored (ran b p x.name .started []), .ended x (.error f)] (.error f)
  | misconfigured {f : Fault} (h : f.kind = .missingParameter) :
      Attempt b p x [.stored (ran b p x.name .started []), .ended x (.error f),
        .stored (unconfigured b p x.name f)] (.error f)
  | misconfiguredUnclosed {f : Fault} (h : f.kind = .missingParameter) (g : Fault) :
      Attempt b p x [.stored (ran b p x.name .started []), .ended x (.error f),
        .refused (unconfigured b p x.name f) g] (.error g)

/-- How attempts go one after another, up to the first that ends with a fault. -/
inductive Attempts (b : Blob) (p : Params) :
    List Extractor → List Deed → Except Fault (List (Extractor × Outcome Value)) → Prop
  | nil : Attempts b p [] [] (.ok [])
  | next {x : Extractor} {xs : List Extractor} {ds ds' : List Deed} {o : Outcome Value}
      {r : Except Fault (List (Extractor × Outcome Value))} :
      Attempt b p x ds (.ok o) → Attempts b p xs ds' r →
      Attempts b p (x :: xs) (ds ++ ds') (r.map ((x, o) :: ·))
  | stop {x : Extractor} {xs : List Extractor} {ds : List Deed} {f : Fault} :
      Attempt b p x ds (.error f) → Attempts b p (x :: xs) ds (.error f)

def reported (r : Report) (os : List (Extractor × Outcome Value)) : Report :=
  os.foldl (fun r o => r.add o.1.name o.2) r

/-- How a dispatch to some candidates can go, and how it ends. -/
inductive Course (b : Blob) (p : Params) (xs : List Extractor) : List Deed → Except Fault Report → Prop
  | undetected (f : Fault) : Course b p xs [.refused (detected b p (xs.map Extractor.name)) f] (.error f)
  | detected {ds : List Deed} {r : Except Fault (List (Extractor × Outcome Value))}
      (h : Attempts b p xs ds r) :
      Course b p xs (.stored (detected b p (xs.map Extractor.name)) :: ds)
        (r.map (reported (.start b.id (xs.map Extractor.name))))

theorem run_record (log : EventLog σ) (e : Event) (st : σ × Outside) :
    (record log e).run st = (((log.insertEvent e).run st.1).1, ((log.insertEvent e).run st.1).2, st.2) := rfl

theorem run_record_of_stored {e : Event} {st st' : σ × Outside}
    (h : (Deed.stored e).Does log b path p st st') : (record log e).run st = (.ok (), st') := by
  obtain ⟨hi, hw⟩ := h
  rw [run_record, hi, ← hw]

theorem run_record_of_refused {e : Event} {f : Fault} {st st' : σ × Outside}
    (h : (Deed.refused e f).Does log b path p st st') : (record log e).run st = (.error f, st') := by
  obtain ⟨hi, hw⟩ := h
  rw [run_record, hi, ← hw]

theorem Performed.uncons {d : Deed} {ds : List Deed} {st st₂ : σ × Outside}
    (h : Performed log b path p (d :: ds) st st₂) :
    ∃ st₁, d.Does log b path p st st₁ ∧ Performed log b path p ds st₁ st₂ := by
  cases h with
  | cons hd h => exact ⟨_, hd, h⟩

theorem Performed.does {d : Deed} {st st' : σ × Outside} (h : Performed log b path p [d] st st') :
    d.Does log b path p st st' := by
  cases h with
  | cons hd h =>
    cases h
    exact hd

theorem Performed.append_inv {ds ds' : List Deed} {st st₂ : σ × Outside}
    (h : Performed log b path p (ds ++ ds') st st₂) :
    ∃ st₁, Performed log b path p ds st st₁ ∧ Performed log b path p ds' st₁ st₂ := by
  induction ds generalizing st with
  | nil => exact ⟨st, .nil st, h⟩
  | cons d ds ih =>
    cases h with
    | cons hd h =>
      obtain ⟨st₁, h₁, h₂⟩ := ih h
      exact ⟨st₁, .cons hd h₁, h₂⟩

def tryOut (log : EventLog σ) (x : Extractor) (b : Blob) (path : FilePath) (p : Params) :
    Action (σ × Outside) (Outcome Value) := do
  let o ← attempt log x b path p
  close log b p x.name o
  return o

theorem runAll_cons (xs : List Extractor) (r : Report) :
    runAll log b path p (x :: xs) r =
      (do let o ← tryOut log x b path p; runAll log b path p xs (r.add x.name o)) := by
  simp only [runAll, tryOut, bind_assoc, pure_bind]

theorem close_eq (name : String) (o : Outcome Value) :
    close log b p name o = (closing? b p name o).elim (pure ()) (record log) := by
  cases o <;> rfl

theorem tryOut_of_leaves {st st₂ : σ × Outside} {f : Fault}
    (h : (attempt log x b path p).run st = (.error f, st₂)) :
    (tryOut log x b path p).run st = (.error f, st₂) := by
  rw [tryOut, Action.run_bind_of_error h]

section

variable {st st₁ st₂ : σ × Outside}

theorem run_attempt_of_stored (hs : (Deed.stored (ran b p x.name .started [])).Does log b path p st st₁) :
    (attempt log x b path p).run st =
      ((Action.second (x.extract b path p)).onFault (settle log b p x.name)).run
        (st₁.1, st₁.2.log (.invoked x.name)) := by
  rw [attempt, Action.run_bind_of_ok (run_record_of_stored hs)]
  rfl

theorem run_attempt_of_returned {o : Outcome Value}
    (hs : (Deed.stored (ran b p x.name .started [])).Does log b path p st st₁)
    (he : (Deed.ended x (.ok o)).Does log b path p st₁ st₂) :
    (attempt log x b path p).run st = (.ok o, st₂) := by
  obtain ⟨hx, hlog⟩ := he
  rw [run_attempt_of_stored hs, Action.run_onFault, Action.run_second, hx, ← hlog]

theorem run_attempt_of_fault {f : Fault}
    (hs : (Deed.stored (ran b p x.name .started [])).Does log b path p st st₁)
    (he : (Deed.ended x (.error f)).Does log b path p st₁ st₂) :
    (attempt log x b path p).run st = (settle log b p x.name f).run st₂ := by
  obtain ⟨hx, hlog⟩ := he
  rw [run_attempt_of_stored hs, Action.run_onFault, Action.run_second, hx, ← hlog]

theorem run_attempt_of_settles {r : Except Fault (Outcome Value)} {o : Outcome Value} (h : Settles r o)
    (hs : (Deed.stored (ran b p x.name .started [])).Does log b path p st st₁)
    (he : (Deed.ended x r).Does log b path p st₁ st₂) :
    (attempt log x b path p).run st = (.ok o, st₂) := by
  cases h with
  | returned => exact run_attempt_of_returned hs he
  | unforeseen hm hst ho =>
    rw [run_attempt_of_fault hs he, settle, if_neg hm, hst, ho]
    rfl

theorem run_attempt_of_left {f : Fault} (h : f.kind.isStorage = true ∨ f.kind.isOrdinary = false)
    (hs : (Deed.stored (ran b p x.name .started [])).Does log b path p st st₁)
    (he : (Deed.ended x (.error f)).Does log b path p st₁ st₂) :
    (attempt log x b path p).run st = (.error f, st₂) := by
  have hm : f.kind ≠ .missingParameter := by
    intro hm
    rw [hm] at h
    exact h.elim nofun nofun
  rw [run_attempt_of_fault hs he, settle, if_neg hm]
  split
  · rfl
  · rename_i hst
    rw [h.resolve_left hst]
    rfl

theorem run_attempt_of_misconfigured {f : Fault} (h : f.kind = .missingParameter)
    (hs : (Deed.stored (ran b p x.name .started [])).Does log b path p st st₁)
    (he : (Deed.ended x (.error f)).Does log b path p st₁ st₂) :
    (attempt log x b path p).run st =
      (do record log (unconfigured b p x.name f); Action.fail f : Action _ (Outcome Value)).run st₂ := by
  rw [run_attempt_of_fault hs he, settle, if_pos h]
  rfl

end

theorem run_tryOut_of_attempt {ds : List Deed} {r : Except Fault (Outcome Value)}
    (h : Attempt b p x ds r) {st st' : σ × Outside} (hp : Performed log b path p ds st st') :
    (tryOut log x b path p).run st = (r, st') := by
  cases h with
  | unstarted f =>
    exact tryOut_of_leaves (Action.run_bind_of_error (run_record_of_refused hp.does))
  | interrupted reason =>
    obtain ⟨st₁, hs, hp⟩ := hp.uncons
    have he := hp.does
    rw [tryOut, Action.run_bind_of_ok (run_attempt_of_settles (.returned _) hs he)]
    rfl
  | closed h hc =>
    obtain ⟨st₁, hs, hp⟩ := hp.uncons
    obtain ⟨st₂, he, hp⟩ := hp.uncons
    have hd := hp.does
    rw [tryOut, Action.run_bind_of_ok (run_attempt_of_settles h hs he), close_eq, hc, Option.elim_some,
      Action.run_bind_of_ok (run_record_of_stored hd)]
    rfl
  | unclosed h hc f =>
    obtain ⟨st₁, hs, hp⟩ := hp.uncons
    obtain ⟨st₂, he, hp⟩ := hp.uncons
    have hd := hp.does
    rw [tryOut, Action.run_bind_of_ok (run_attempt_of_settles h hs he), close_eq, hc, Option.elim_some,
      Action.run_bind_of_error (run_record_of_refused hd)]
  | left h =>
    obtain ⟨st₁, hs, hp⟩ := hp.uncons
    have he := hp.does
    exact tryOut_of_leaves (run_attempt_of_left h hs he)
  | misconfigured h =>
    obtain ⟨st₁, hs, hp⟩ := hp.uncons
    obtain ⟨st₂, he, hp⟩ := hp.uncons
    have hd := hp.does
    apply tryOut_of_leaves
    rw [run_attempt_of_misconfigured h hs he, Action.run_bind_of_ok (run_record_of_stored hd)]
    rfl
  | misconfiguredUnclosed h g =>
    obtain ⟨st₁, hs, hp⟩ := hp.uncons
    obtain ⟨st₂, he, hp⟩ := hp.uncons
    have hd := hp.does
    apply tryOut_of_leaves
    rw [run_attempt_of_misconfigured h hs he, Action.run_bind_of_error (run_record_of_refused hd)]

theorem run_runAll_of_attempts {xs : List Extractor} {ds : List Deed}
    {os : Except Fault (List (Extractor × Outcome Value))} (h : Attempts b p xs ds os)
    {st st' : σ × Outside} (hp : Performed log b path p ds st st') (r : Report) :
    (runAll log b path p xs r).run st = (os.map (reported r), st') := by
  induction h generalizing st r with
  | nil =>
    cases hp
    rfl
  | @next x xs ds ds' o os ha _ ih =>
    obtain ⟨st₁, h₁, h₂⟩ := hp.append_inv
    rw [runAll_cons, Action.run_bind_of_ok (run_tryOut_of_attempt ha h₁), ih h₂]
    cases os <;> rfl
  | stop ha =>
    rw [runAll_cons, Action.run_bind_of_error (run_tryOut_of_attempt ha hp)]
    rfl

/-- A course whose deeds can all be done, on any log, is the one that the dispatch takes. -/
theorem run_dispatch_of_course {registry : Registry} {ds : List Deed} {r : Except Fault Report}
    (h : Course b p (registry.candidates b.mimeType b.size) ds r) {st st' : σ × Outside}
    (hp : Performed log b path p ds st st') : (dispatch log registry b path p).run st = (r, st') := by
  cases h with
  | undetected f =>
    exact Action.run_bind_of_error (run_record_of_refused hp.does)
  | detected ha =>
    obtain ⟨st₁, hd, hp⟩ := hp.uncons
    rw [dispatch, Action.run_bind_of_ok (run_record_of_stored hd), run_runAll_of_attempts ha hp]

theorem exists_told (log : EventLog σ) (b : Blob) (path : FilePath) (p : Params) (e : Event)
    (st : σ × Outside) :
    (∃ st', (Deed.stored e).Does log b path p st st') ∨
      ∃ f st', (Deed.refused e f).Does log b path p st st' := by
  obtain ⟨s, w⟩ := st
  cases h : (log.insertEvent e).run s with
  | mk r s' =>
    cases r with
    | ok u => exact .inl ⟨(s', w), h, rfl⟩
    | error f => exact .inr ⟨f, (s', w), h, rfl⟩

theorem exists_ended (log : EventLog σ) (x : Extractor) (b : Blob) (path : FilePath) (p : Params)
    (st : σ × Outside) : ∃ r st', (Deed.ended x r).Does log b path p st st' := by
  obtain ⟨s, w⟩ := st
  exact ⟨_, (s, _), rfl, rfl⟩

theorem Settles.attempt_of_untold {r : Except Fault (Outcome Value)} {o : Outcome Value} (h : Settles r o)
    (hc : closing? b p x.name o = none) :
    Attempt b p x [.stored (ran b p x.name .started []), .ended x r] (.ok o) := by
  cases h with
  | unforeseen hm hs ho => cases hc
  | returned =>
    cases o with
    | interrupted reason => exact .interrupted reason
    | success v => cases hc
    | failed f => cases hc

theorem exists_attempt_of_settles {r : Except Fault (Outcome Value)} {o : Outcome Value} (h : Settles r o)
    {st st₂ : σ × Outside}
    (hp : Performed log b path p [.stored (ran b p x.name .started []), .ended x r] st st₂) :
    ∃ ds r' st', Performed log b path p ds st st' ∧ Attempt b p x ds r' := by
  cases hc : closing? b p x.name o with
  | none => exact ⟨_, _, _, hp, h.attempt_of_untold hc⟩
  | some e =>
    obtain ⟨st₃, hd⟩ | ⟨f, st₃, hd⟩ := exists_told log b path p e st₂
    · exact ⟨_, _, _, hp.append (.single hd), .closed h hc⟩
    · exact ⟨_, _, _, hp.append (.single hd), .unclosed h hc f⟩

theorem exists_attempt_of_fault {f : Fault} {st st₂ : σ × Outside}
    (hp : Performed log b path p [.stored (ran b p x.name .started []), .ended x (.error f)] st st₂) :
    ∃ ds r st', Performed log b path p ds st st' ∧ Attempt b p x ds r := by
  by_cases hm : f.kind = .missingParameter
  · obtain ⟨st₃, hd⟩ | ⟨g, st₃, hd⟩ := exists_told log b path p (unconfigured b p x.name f) st₂
    · exact ⟨_, _, _, hp.append (.single hd), .misconfigured hm⟩
    · exact ⟨_, _, _, hp.append (.single hd), .misconfiguredUnclosed hm g⟩
  · cases hs : f.kind.isStorage with
    | true => exact ⟨_, _, _, hp, .left (.inl hs)⟩
    | false =>
      cases ho : f.kind.isOrdinary with
      | true => exact exists_attempt_of_settles (.unforeseen hm hs ho) hp
      | false => exact ⟨_, _, _, hp, .left (.inr ho)⟩

/-- From every state an attempt can go in one of its ways. -/
theorem attempt_possible (log : EventLog σ) (x : Extractor) (b : Blob) (path : FilePath) (p : Params)
    (st : σ × Outside) : ∃ ds r st', Performed log b path p ds st st' ∧ Attempt b p x ds r := by
  obtain ⟨st₁, hd⟩ | ⟨f, st₁, hd⟩ := exists_told log b path p (ran b p x.name .started []) st
  · obtain ⟨r, st₂, he⟩ := exists_ended log x b path p st₁
    have hp : Performed log b path p [.stored (ran b p x.name .started []), .ended x r] st st₂ :=
      .cons hd (.single he)
    cases r with
    | ok o => exact exists_attempt_of_settles (.returned o) hp
    | error f => exact exists_attempt_of_fault hp
  · exact ⟨_, _, _, .single hd, .unstarted f⟩

theorem attempts_possible (log : EventLog σ) (b : Blob) (path : FilePath) (p : Params)
    (xs : List Extractor) (st : σ × Outside) :
    ∃ ds os st', Performed log b path p ds st st' ∧ Attempts b p xs ds os := by
  induction xs generalizing st with
  | nil => exact ⟨[], .ok [], st, .nil st, .nil⟩
  | cons x xs ih =>
    obtain ⟨ds, r, st₁, hp, ha⟩ := attempt_possible log x b path p st
    cases r with
    | ok o =>
      obtain ⟨ds', os, st₂, hp', has⟩ := ih st₁
      exact ⟨_, _, _, hp.append hp', .next ha has⟩
    | error f => exact ⟨_, _, _, hp, .stop ha⟩

theorem course_possible (log : EventLog σ) (b : Blob) (path : FilePath) (p : Params)
    (xs : List Extractor) (st : σ × Outside) :
    ∃ ds r st', Performed log b path p ds st st' ∧ Course b p xs ds r := by
  obtain ⟨st₁, hd⟩ | ⟨f, st₁, hd⟩ := exists_told log b path p (detected b p (xs.map Extractor.name)) st
  · obtain ⟨ds, os, st₂, hp, ha⟩ := attempts_possible log b path p xs st₁
    exact ⟨_, _, _, .cons hd hp, .detected ha⟩
  · exact ⟨_, _, _, .single hd, .undetected f⟩

/-- Every dispatch takes one of its courses. -/
theorem dispatch_course (log : EventLog σ) (registry : Registry) (b : Blob) (path : FilePath)
    (p : Params) (st : σ × Outside) :
    ∃ ds, Performed log b path p ds st ((dispatch log registry b path p).run st).2 ∧
      Course b p (registry.candidates b.mimeType b.size) ds ((dispatch log registry b path p).run st).1 := by
  obtain ⟨ds, r, st', hp, hc⟩ := course_possible log b path p (registry.candidates b.mimeType b.size) st
  rw [run_dispatch_of_course hc hp]
  exact ⟨ds, hp, hc⟩

/-- Handling a task tells where its blob was seen, and goes on if the log takes that. -/
theorem run_handle (log : EventLog σ) (registry : Registry) (t : Task) (s : σ) (w : Outside) :
    (handle log registry t).run (s, w) = match (log.insertSighting t.sighting).run s with
      | (.ok _, s₁) => (dispatch log registry t.blob t.file t.params).run (s₁, w)
      | (.error f, s₁) => (.error f, s₁, w) := by
  rw [handle, Action.run_bind, Action.run_first]
  cases (log.insertSighting t.sighting).run s with
  | mk r s₁ => cases r <;> rfl

end Intake.Dispatch
