/-!
# Going through lists

Computations made for every element of a list, and lists without repetitions.
-/
namespace Intake.Lists

variable {α β ε : Type}

theorem bind_eq_ok_iff {x : Except ε α} {f : α → Except ε β} {b : β} :
    x >>= f = .ok b ↔ ∃ a, x = .ok a ∧ f a = .ok b := by
  cases x with
  | error e => exact ⟨nofun, nofun⟩
  | ok a => exact ⟨fun h => ⟨a, rfl, h⟩, fun ⟨_, h, h'⟩ => Except.ok.inj h ▸ h'⟩

theorem mapM_ok {f : α → Except ε β} {g : α → β} {l : List α} (h : ∀ a ∈ l, f a = .ok (g a)) :
    l.mapM f = .ok (l.map g) := by
  induction l with
  | nil => rfl
  | cons a l ih =>
    rw [List.mapM_cons, h a List.mem_cons_self, ih fun a ha => h a (List.mem_cons_of_mem _ ha)]
    rfl

theorem mapM_map_ok {γ : Type} {f : α → Except ε β} {g : γ → α} {k : γ → β} {l : List γ}
    (h : ∀ c ∈ l, f (g c) = .ok (k c)) : (l.map g).mapM f = .ok (l.map k) := by
  rw [List.mapM_map]
  exact mapM_ok h

theorem mapM_congr {f g : α → Except ε β} {l : List α} (h : ∀ a ∈ l, f a = g a) :
    l.mapM f = l.mapM g := by
  induction l with
  | nil => rfl
  | cons a l ih =>
    rw [List.mapM_cons, List.mapM_cons, h a List.mem_cons_self,
      ih fun a ha => h a (List.mem_cons_of_mem _ ha)]

theorem mapM_cons_eq_ok_iff {f : α → Except ε β} {a : α} {l : List α} {bs : List β} :
    (a :: l).mapM f = .ok bs ↔ ∃ b bs', f a = .ok b ∧ l.mapM f = .ok bs' ∧ bs = b :: bs' := by
  rw [List.mapM_cons, bind_eq_ok_iff]
  constructor
  · rintro ⟨b, hb, h⟩
    obtain ⟨bs', hbs, h⟩ := bind_eq_ok_iff.mp h
    exact ⟨b, bs', hb, hbs, (Except.ok.inj h).symm⟩
  · rintro ⟨b, bs', hb, hbs, rfl⟩
    exact ⟨b, hb, bind_eq_ok_iff.mpr ⟨bs', hbs, rfl⟩⟩

theorem forall_of_mapM {f : α → Except ε β} {P : β → Prop} {l : List α} {bs : List β}
    (h : ∀ a ∈ l, ∀ b, f a = .ok b → P b) (hl : l.mapM f = .ok bs) : ∀ b ∈ bs, P b := by
  induction l generalizing bs with
  | nil =>
    cases hl
    simp
  | cons a l ih =>
    obtain ⟨b, bs', hb, hbs, rfl⟩ := mapM_cons_eq_ok_iff.mp hl
    intro c hc
    rcases List.mem_cons.mp hc with rfl | hc
    · exact h a List.mem_cons_self c hb
    · exact ih (fun a ha => h a (List.mem_cons_of_mem _ ha)) hbs c hc

theorem exists_of_mapM {f : α → Except ε β} {l : List α} {bs : List β} (hl : l.mapM f = .ok bs) :
    ∀ a ∈ l, ∃ b ∈ bs, f a = .ok b := by
  induction l generalizing bs with
  | nil => simp
  | cons a l ih =>
    obtain ⟨b, bs', hb, hbs, rfl⟩ := mapM_cons_eq_ok_iff.mp hl
    intro c hc
    rcases List.mem_cons.mp hc with rfl | hc
    · exact ⟨b, List.mem_cons_self, hb⟩
    · obtain ⟨d, hd, hf⟩ := ih hbs c hc
      exact ⟨d, List.mem_cons_of_mem _ hd, hf⟩

theorem exists_mapM {f : α → Except ε β} {l : List α} (h : ∀ a ∈ l, ∃ b, f a = .ok b) :
    ∃ bs, l.mapM f = .ok bs := by
  induction l with
  | nil => exact ⟨[], rfl⟩
  | cons a l ih =>
    obtain ⟨b, hb⟩ := h a List.mem_cons_self
    obtain ⟨bs, hbs⟩ := ih fun a ha => h a (List.mem_cons_of_mem _ ha)
    exact ⟨b :: bs, mapM_cons_eq_ok_iff.mpr ⟨b, bs, hb, hbs, rfl⟩⟩

theorem mapM_filter {f : α → Except ε β} {p : α → Bool} {q : β → Bool} {l : List α} {bs : List β}
    (h : ∀ a b, f a = .ok b → q b = p a) (hl : l.mapM f = .ok bs) :
    (l.filter p).mapM f = .ok (bs.filter q) := by
  induction l generalizing bs with
  | nil =>
    cases hl
    rfl
  | cons a l ih =>
    obtain ⟨b, bs', hb, hbs, rfl⟩ := mapM_cons_eq_ok_iff.mp hl
    rw [List.filter_cons, List.filter_cons, h a b hb]
    split
    · exact mapM_cons_eq_ok_iff.mpr ⟨b, _, hb, ih hbs, rfl⟩
    · exact ih hbs

theorem mapM_of_imp {f g : α → Except ε β} {l : List α} {bs : List β}
    (h : ∀ a ∈ l, ∀ b, f a = .ok b → g a = .ok b) (hl : l.mapM f = .ok bs) : l.mapM g = .ok bs := by
  induction l generalizing bs with
  | nil => exact hl
  | cons a l ih =>
    obtain ⟨b, bs', hb, hbs, rfl⟩ := mapM_cons_eq_ok_iff.mp hl
    have hg := ih (fun a ha => h a (List.mem_cons_of_mem _ ha)) hbs
    exact mapM_cons_eq_ok_iff.mpr ⟨b, bs', h a List.mem_cons_self b hb, hg, rfl⟩

theorem map_of_mapM {f : α → Except ε β} {k : β → α} {l : List α} {bs : List β}
    (h : ∀ a b, f a = .ok b → k b = a) (hl : l.mapM f = .ok bs) : bs.map k = l := by
  induction l generalizing bs with
  | nil =>
    cases hl
    rfl
  | cons a l ih =>
    obtain ⟨b, bs', hb, hbs, rfl⟩ := mapM_cons_eq_ok_iff.mp hl
    rw [List.map_cons, h a b hb, ih hbs]

theorem eq_map_of_mapM {f : α → Except ε β} {g : α → β} {l : List α} {bs : List β}
    (h : ∀ a ∈ l, ∀ b, f a = .ok b → b = g a) (hl : l.mapM f = .ok bs) : bs = l.map g := by
  have hg := mapM_of_imp (g := fun a => .ok (g a)) (fun a ha b hb => congrArg _ (h a ha b hb).symm) hl
  rw [mapM_ok fun _ _ => rfl] at hg
  exact (Except.ok.inj hg).symm

theorem mapM_perm {f : α → Except ε β} {l l' : List α} (h : l.Perm l') {bs : List β}
    (hl : l.mapM f = .ok bs) : ∃ bs', l'.mapM f = .ok bs' ∧ bs.Perm bs' := by
  induction h generalizing bs with
  | nil => exact ⟨bs, hl, .refl _⟩
  | cons a _ ih =>
    obtain ⟨b, cs, hb, hcs, rfl⟩ := mapM_cons_eq_ok_iff.mp hl
    obtain ⟨cs', hcs', hp⟩ := ih hcs
    exact ⟨b :: cs', mapM_cons_eq_ok_iff.mpr ⟨b, cs', hb, hcs', rfl⟩, hp.cons b⟩
  | swap a a' l =>
    obtain ⟨b', cs, hb', hcs, rfl⟩ := mapM_cons_eq_ok_iff.mp hl
    obtain ⟨b, ds, hb, hds, rfl⟩ := mapM_cons_eq_ok_iff.mp hcs
    have hd := mapM_cons_eq_ok_iff.mpr ⟨b', ds, hb', hds, rfl⟩
    exact ⟨b :: b' :: ds, mapM_cons_eq_ok_iff.mpr ⟨b, b' :: ds, hb, hd, rfl⟩, .swap ..⟩
  | trans _ _ ih ih' =>
    obtain ⟨cs, hcs, hp⟩ := ih hl
    obtain ⟨ds, hds, hp'⟩ := ih' hcs
    exact ⟨ds, hds, hp.trans hp'⟩

theorem getD_succ (l : List α) (n : Nat) (d : α) : l.getD (n + 1) d = l.tail.getD n d := by
  cases l <;> rfl

theorem lookup_cons_eq_ite [BEq α] [LawfulBEq α] [DecidableEq α] (a k : α) (b : β) (l : List (α × β)) :
    List.lookup a ((k, b) :: l) = if a = k then some b else l.lookup a := by
  rw [List.lookup_cons]
  split
  · rename_i h
    rw [if_pos (eq_of_beq h)]
  · rename_i h
    rw [if_neg (ne_of_beq_false h)]

theorem filter_comm (p q : α → Bool) (l : List α) : (l.filter p).filter q = (l.filter q).filter p := by
  rw [List.filter_filter, List.filter_filter]
  exact List.filter_congr fun a _ => Bool.and_comm ..

theorem filter_filter_of_imp {p q : α → Bool} (h : ∀ a, p a = true → q a = true) (l : List α) :
    (l.filter q).filter p = l.filter p := by
  rw [List.filter_filter]
  apply List.filter_congr
  intro a _
  rw [Bool.and_eq_left_iff_imp]
  exact h a

theorem filter_self (p : α → Bool) (l : List α) : (l.filter p).filter p = l.filter p :=
  filter_filter_of_imp (fun _ h => h) l

theorem filter_append_left {p : α → Bool} {l l' : List α} (h : ∀ a ∈ l, p a = true)
    (h' : ∀ a ∈ l', p a = false) : (l ++ l').filter p = l := by
  rw [List.filter_append, List.filter_eq_self.mpr h, List.filter_eq_nil_iff.mpr, List.append_nil]
  intro a ha
  simp [h' a ha]

theorem filter_append_right {p : α → Bool} {l l' : List α} (h : ∀ a ∈ l, p a = false)
    (h' : ∀ a ∈ l', p a = true) : (l ++ l').filter p = l' := by
  rw [List.filter_append, List.filter_eq_self.mpr h', List.filter_eq_nil_iff.mpr, List.nil_append]
  intro a ha
  simp [h a ha]

/-- What comes next at some place in a list of parts comes next in one of the parts. -/
theorem snoc_prefix_flatMap {f : α → List β} {l : List α} {done : List β} {x : β}
    (h : done ++ [x] <+: l.flatMap f) :
    ∃ before a after part, l = before ++ a :: after ∧ done = before.flatMap f ++ part ∧ part ++ [x] <+: f a := by
  induction l generalizing done with
  | nil => simp at h
  | cons a l ih =>
    rw [List.flatMap_cons] at h
    have hhere (hp : done ++ [x] <+: f a) :
        ∃ before b after part, a :: l = before ++ b :: after ∧ done = before.flatMap f ++ part ∧
          part ++ [x] <+: f b := ⟨[], a, l, done, rfl, rfl, hp⟩
    obtain hp | ⟨k, hk⟩ := List.prefix_or_prefix_of_prefix h (List.prefix_append (f a) (l.flatMap f))
    · exact hhere hp
    · obtain rfl | ⟨k, y, rfl⟩ := List.eq_nil_or_concat k
      · rw [List.append_nil] at hk
        exact hhere (hk ▸ List.prefix_rfl)
      · rw [List.concat_eq_append, ← List.append_assoc] at hk
        obtain ⟨rfl, -⟩ := List.append_inj' hk rfl
        rw [List.append_assoc, List.prefix_append_right_inj] at h
        obtain ⟨before, b, after, part, rfl, rfl, hp⟩ := ih h
        exact ⟨a :: before, b, after, part, rfl, by rw [List.flatMap_cons, List.append_assoc], hp⟩

private theorem separator_inj_of_append {a : α} {l l' m m' k : List α} (hm : a ∉ m) (hl : l' = l ++ k)
    (hk : a :: m = k ++ a :: m') : l = l' ∧ m = m' := by
  cases k with
  | nil => exact ⟨by rw [hl, List.append_nil], (List.cons.inj hk).2⟩
  | cons c k =>
    have hmem : a ∈ m := by
      rw [(List.cons.inj hk).2]
      exact List.mem_append_right _ List.mem_cons_self
    exact absurd hmem hm

/-- The last of some separators cuts a list in one way. -/
theorem append_separator_inj {a : α} {l l' m m' : List α} (hm : a ∉ m) (hm' : a ∉ m')
    (h : l ++ a :: m = l' ++ a :: m') : l = l' ∧ m = m' := by
  obtain ⟨k, hl, hk⟩ | ⟨k, hl, hk⟩ := List.append_eq_append_iff.mp h
  · exact separator_inj_of_append hm hl hk
  · exact (separator_inj_of_append hm' hl hk).imp Eq.symm Eq.symm

theorem filter_eq_singleton {p : α → Bool} {l : List α}
    (h : l.Pairwise fun a b => p a = true → p b = false) {a : α} (ha : a ∈ l) (hp : p a = true) :
    l.filter p = [a] := by
  induction l with
  | nil => cases ha
  | cons b l ih =>
    obtain ⟨hb, hl⟩ := List.pairwise_cons.mp h
    rcases List.mem_cons.mp ha with rfl | ha
    · have hrest : l.filter p = [] := List.filter_eq_nil_iff.mpr fun c hc => by simp [hb c hc hp]
      rw [List.filter_cons_of_pos hp, hrest]
    · have hn : ¬p b = true := fun hpb => by simp [hb a ha hpb] at hp
      rw [List.filter_cons_of_neg hn, ih hl ha]

theorem filter_induction {P : List α → Prop} {q : α → α → Bool} (nil : P [])
    (cons : ∀ a l, P (l.filter (q a)) → P (a :: l)) (l : List α) : P l := by
  induction h : l.length using Nat.strongRecOn generalizing l with
  | ind n ih =>
    cases l with
    | nil => exact nil
    | cons a l =>
      refine cons a l (ih _ ?_ _ rfl)
      rw [← h]
      exact Nat.lt_succ_of_le (List.length_filter_le _ _)

section

variable (same : α → α → Bool)

theorem eraseDupsBy_sublist (l : List α) : (l.eraseDupsBy same).Sublist l := by
  induction l using filter_induction (q := fun a b => same b a = false) with
  | nil => simp
  | cons a l ih =>
    rw [List.eraseDupsBy_cons]
    exact (ih.trans List.filter_sublist).cons_cons a

theorem pairwise_eraseDupsBy (l : List α) :
    (l.eraseDupsBy same).Pairwise fun a b => same b a = false := by
  induction l using filter_induction (q := fun a b => same b a = false) with
  | nil => simp
  | cons a l ih =>
    rw [List.eraseDupsBy_cons, List.pairwise_cons]
    refine ⟨fun b hb => ?_, ih⟩
    simpa using (List.mem_filter.mp ((eraseDupsBy_sublist same _).subset hb)).2

theorem any_eraseDupsBy {p : α → Bool} (h : ∀ a b, same b a = true → p b = true → p a = true)
    (l : List α) : (l.eraseDupsBy same).any p = l.any p := by
  induction l using filter_induction (q := fun a b => same b a = false) with
  | nil => simp
  | cons a l ih =>
    rw [List.eraseDupsBy_cons, List.any_cons, List.any_cons, ih, List.any_filter]
    cases ha : p a with
    | true => simp
    | false =>
      congr 2
      funext b
      cases hs : same b a with
      | false => simp
      | true =>
        have hb : p b = false := Bool.eq_false_iff.mpr fun hb => by simp [h a b hs hb] at ha
        simp [hb]

theorem eraseDupsBy_map (f : β → α) (l : List β) :
    (l.map f).eraseDupsBy same = (l.eraseDupsBy fun b c => same (f b) (f c)).map f := by
  induction l using filter_induction (q := fun b c => same (f c) (f b) = false) with
  | nil => simp
  | cons b l ih =>
    rw [List.map_cons, List.eraseDupsBy_cons, List.eraseDupsBy_cons, List.map_cons, ← ih, List.filter_map]
    rfl

private theorem foldl_distinct_append (l acc : List α) :
    l.foldl (fun seen a => if seen.any (same a) then seen else seen ++ [a]) acc =
      acc ++ (l.filter fun a => !acc.any (same a)).eraseDupsBy same := by
  induction l generalizing acc with
  | nil => simp
  | cons a l ih =>
    rw [List.foldl_cons, List.filter_cons, ih]
    cases ha : acc.any (same a) with
    | true => simp
    | false =>
      -- What the longer list lets through is what `eraseDupsBy` goes on with after `a`.
      have hf : (l.filter fun b => !(acc ++ [a]).any (same b)) =
          (l.filter fun b => !acc.any (same b)).filter fun b => same b a = false := by
        rw [List.filter_filter]
        apply List.filter_congr
        intro b _
        cases hb : same b a <;> simp [hb]
      rw [if_neg Bool.false_ne_true, hf, Bool.not_false, if_pos rfl, List.eraseDupsBy_cons,
        List.append_assoc, List.singleton_append]

/-- Keeping of each element the first is what a fold does that looks for it among those kept. -/
theorem foldl_distinct (l : List α) :
    l.foldl (fun seen a => if seen.any (same a) then seen else seen ++ [a]) [] = l.eraseDupsBy same := by
  have hf : (l.filter fun a => !([] : List α).any (same a)) = l := List.filter_eq_self.mpr fun _ _ => rfl
  rw [foldl_distinct_append, hf, List.nil_append]

theorem eraseDupsBy_append (l l' : List α) :
    (l ++ l').eraseDupsBy same = l.eraseDupsBy same ++
      (l'.filter fun a => !(l.eraseDupsBy same).any (same a)).eraseDupsBy same := by
  rw [← foldl_distinct, List.foldl_append, foldl_distinct, foldl_distinct_append]

end

theorem eraseDups_snoc [BEq α] [LawfulBEq α] (l : List α) (a : α) [Decidable (a ∈ l)] :
    (l ++ [a]).eraseDups = if a ∈ l then l.eraseDups else l.eraseDups ++ [a] := by
  rw [List.eraseDups_append]
  split
  · rename_i h
    simp [List.removeAll, h]
  · rename_i h
    simp [List.removeAll, h, List.eraseDups_cons]

theorem nodup_eraseDups [BEq α] [LawfulBEq α] (l : List α) : l.eraseDups.Nodup :=
  (pairwise_eraseDupsBy _ l).imp fun h => Ne.symm (ne_of_beq_false h)

theorem eraseDups_filter [BEq α] [LawfulBEq α] (p : α → Bool) (l : List α) :
    (l.filter p).eraseDups = l.eraseDups.filter p := by
  induction l using filter_induction (q := fun a b : α => !b == a) with
  | nil => simp
  | cons a l ih =>
    have hc := filter_comm (fun b => !b == a) p l
    rw [List.eraseDups_cons, List.filter_cons, List.filter_cons, ← ih, hc]
    split
    · rw [List.eraseDups_cons]
    · rename_i hp
      congr 1
      refine (List.filter_eq_self.mpr ?_).symm
      intro b hb
      have hb := (List.mem_filter.mp hb).2
      simpa using fun e : b = a => hp (e ▸ hb)

theorem eraseDups_perm [BEq α] [LawfulBEq α] {l l' : List α} (h : l.Perm l') :
    l.eraseDups.Perm l'.eraseDups := by
  rw [List.perm_ext_iff_of_nodup (nodup_eraseDups l) (nodup_eraseDups l')]
  intro a
  rw [List.mem_eraseDups, List.mem_eraseDups, h.mem_iff]

/-- If a list is split by what its elements belong to, and none belongs to two, nothing is lost. -/
theorem flatMap_filter_perm {κ : Type} {p : κ → α → Bool} {ks : List κ}
    (h : ks.Pairwise fun k k' => ∀ a, p k a = true → p k' a = false) (l : List α) :
    (ks.flatMap fun k => l.filter (p k)).Perm (l.filter fun a => ks.any fun k => p k a) := by
  induction ks with
  | nil => simp
  | cons k ks ih =>
    obtain ⟨hk, hks⟩ := List.pairwise_cons.mp h
    have hsplit := List.filter_append_perm (p k) (l.filter fun a => (k :: ks).any fun k => p k a)
    have hin : (l.filter fun a => (k :: ks).any fun k => p k a).filter (p k) = l.filter (p k) := by
      apply filter_filter_of_imp
      intro a ha
      simp [ha]
    have hout : ((l.filter fun a => (k :: ks).any fun k => p k a).filter fun a => !p k a) =
        l.filter fun a => ks.any fun k => p k a := by
      rw [List.filter_filter]
      apply List.filter_congr
      intro a _
      cases ha : p k a with
      | false => simp [ha]
      | true =>
        have hnone : (ks.any fun k' => p k' a) = false := by
          rw [List.any_eq_false]
          intro k' hk'
          simp [hk k' hk' a ha]
        simp [hnone]
    rw [hin, hout] at hsplit
    rw [List.flatMap_cons]
    exact ((ih hks).append_left _).trans hsplit

section

variable {γ : Type} {n : Nat} {l : List α}

/-- A list so many times over. -/
def copies (n : Nat) (l : List α) : List α := (List.replicate n l).flatten

theorem copies_succ (n : Nat) (l : List α) : copies (n + 1) l = l ++ copies n l := by
  rw [copies, List.replicate_succ, List.flatten_cons, copies]

theorem copies_one (l : List α) : copies 1 l = l := by simp [copies]

theorem copies_add (m n : Nat) (l : List α) : copies (m + n) l = copies m l ++ copies n l := by
  rw [copies, copies, copies, ← List.replicate_append_replicate, List.flatten_append]

theorem copies_ne_nil (hn : 0 < n) (hl : l ≠ []) : copies n l ≠ [] := by
  cases n with
  | zero => omega
  | succ n => simp [copies_succ, hl]

theorem mem_of_mem_copies {a : α} (h : a ∈ copies n l) : a ∈ l := by
  obtain ⟨l', hl, ha⟩ := List.mem_flatten.mp h
  rwa [← List.eq_of_mem_replicate hl]

theorem map_copies (f : α → γ) (n : Nat) (l : List α) : (copies n l).map f = copies n (l.map f) := by
  rw [copies, List.map_flatten, List.map_replicate, copies]

theorem filterMap_copies (f : α → Option γ) (n : Nat) (l : List α) :
    (copies n l).filterMap f = copies n (l.filterMap f) := by
  rw [copies, List.filterMap_flatten, List.map_replicate, copies]

theorem flatMap_copies (f : α → List γ) (n : Nat) (l : List α) :
    (copies n l).flatMap f = copies n (l.flatMap f) := by
  induction n with
  | zero => rfl
  | succ n ih => rw [copies_succ, copies_succ, List.flatMap_append, ih]

theorem reverse_copies (n : Nat) (l : List α) : (copies n l).reverse = copies n l.reverse := by
  rw [copies, List.reverse_flatten, List.map_replicate, List.reverse_replicate, copies]

theorem getLast?_copies (hn : 0 < n) (l : List α) : (copies n l).getLast? = l.getLast? := by
  induction n with
  | zero => omega
  | succ n ih =>
    rw [copies_succ, List.getLast?_append]
    cases n with
    | zero => simp [copies]
    | succ n => rw [ih (Nat.zero_lt_succ n), Option.or_self]

theorem eraseDups_copies [BEq α] [LawfulBEq α] (hn : 0 < n) (l : List α) :
    (copies n l).eraseDups = l.eraseDups := by
  cases n with
  | zero => omega
  | succ n =>
    have hr : (copies n l).removeAll l = [] := by
      rw [List.removeAll, List.filter_eq_nil_iff]
      intro a ha
      simp [mem_of_mem_copies ha]
    rw [copies_succ, List.eraseDups_append, hr, List.eraseDups_nil, List.append_nil]

end

end Intake.Lists
