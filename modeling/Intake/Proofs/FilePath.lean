import Intake.FilePath
import Mathlib

/-!
# Paths and their text

A path can be read back from its text. A name that continues a path names what is directly in it.
-/
namespace Intake.FilePath

theorem pieces_eq_splitOn (s : List Char) : pieces s = s.splitOn '/' := by
  induction s with
  | nil => rfl
  | cons c s ih =>
    rw [pieces, List.splitOn_cons_eq_if_modifyHead, ih]
    by_cases hc : c = '/'
    · simp [hc]
    · have hn : s.splitOn '/' ≠ [] := List.splitOn_ne_nil _ _
      obtain ⟨p, ps, hp⟩ := List.exists_cons_of_ne_nil hn
      simp [hc, hp]

theorem component?_nil : component? [] = none := rfl

theorem component?_val (c : { s : String // IsComponent s }) : component? c.val.toList = some c := by
  rw [component?, dif_pos (by rw [String.ofList_toList]; exact c.2)]
  simp

theorem rootOf_append (r : Root) {s : List Char} (h : s.head? ≠ some '/') : rootOf (r.text.toList ++ s) = r := by
  have hs : s.takeWhile (· = '/') = [] := by
    cases s with
    | nil => rfl
    | cons c s =>
      have hc : c ≠ '/' := fun e => h (congrArg some e)
      simp [hc]
  have hr : ∀ c ∈ r.text.toList, decide (c = '/') = true := by
    cases r <;> simp [Root.text]
  rw [rootOf, List.takeWhile_append_of_pos hr, hs, List.append_nil]
  cases r <;> rfl

theorem pieces_append (r : Root) (s : List Char) :
    (pieces (r.text.toList ++ s)).filterMap component? = (pieces s).filterMap component? := by
  have hslash (s : List Char) : (pieces ('/' :: s)).filterMap component? = (pieces s).filterMap component? := by
    rw [pieces, if_pos rfl, List.filterMap_cons_none component?_nil]
  cases r with
  | none => rfl
  | single => exact hslash s
  | double => exact (hslash _).trans (hslash s)

theorem ofString_components (r : Root) {cs : List { s : String // IsComponent s }} (h : cs ≠ []) :
    ofString (r.text ++ "/".intercalate (cs.map Subtype.val)) = ⟨r, cs⟩ := by
  have htext : ("/".intercalate (cs.map Subtype.val)).toList = ['/'].intercalate (cs.map fun c => c.val.toList) := by
    rw [String.toList_intercalate, List.map_map]
    rfl
  have hhead : (['/'].intercalate (cs.map fun c => c.val.toList)).head? ≠ some '/' := by
    obtain ⟨c, cs, rfl⟩ := List.exists_cons_of_ne_nil h
    obtain ⟨hne, -, hslash⟩ := c.2
    obtain ⟨d, ds, hd⟩ := List.exists_cons_of_ne_nil fun hl => hne (String.toList_eq_nil_iff.mp hl)
    have hd' : d ≠ '/' := fun e => hslash (by simp [hd, e])
    cases cs <;> simp [hd, hd']
  have hpieces : pieces (['/'].intercalate (cs.map fun c => c.val.toList)) = cs.map fun c => c.val.toList := by
    rw [pieces_eq_splitOn, List.splitOn_intercalate]
    · intro l hl
      obtain ⟨c, -, rfl⟩ := List.mem_map.mp hl
      exact c.2.2.2
    · exact fun hn => h (List.map_eq_nil_iff.mp hn)
  rw [ofString, String.toList_append, htext, rootOf_append r hhead, pieces_append, hpieces, List.filterMap_map]
  simp only [Function.comp_def, component?_val, List.filterMap_some]

theorem ofString_text (p : FilePath) : ofString p.text = p := by
  obtain ⟨r, cs⟩ := p
  by_cases h : cs = []
  · subst h
    cases r <;> rfl
  · rw [text, if_neg fun hn => h hn.2]
    exact ofString_components r h

/-- A path is directly in another one. -/
def DirectlyIn (p q : FilePath) : Prop := ∃ c, p = ⟨q.root, q.components ++ [c]⟩

theorem DirectlyIn.absolute {p q : FilePath} (h : p.DirectlyIn q) : p.absolute.DirectlyIn q.absolute := by
  obtain ⟨c, rfl⟩ := h
  refine ⟨c, ?_⟩
  rcases q with ⟨_ | _ | _, cs⟩ <;> rfl

theorem child_directlyIn (p : FilePath) {s : String} (h : IsComponent s) : (p.child s).DirectlyIn p :=
  ⟨_, child_of_isComponent p h⟩

theorem slash_not_mem_name (p : FilePath) : '/' ∉ p.name.toList := by
  rw [name]
  cases h : p.components.getLast? with
  | none => decide
  | some c => exact c.2.2.2

theorem name_child (p : FilePath) {s : String} (h : IsComponent s) : (p.child s).name = s := by
  simp [child_of_isComponent p h, name]

theorem name_absolute (p : FilePath) : p.absolute.name = p.name := by
  rcases p with ⟨_ | _ | _, cs⟩ <;> rfl

theorem ofString_dot {s : String} (h : IsComponent s) : ofString ("./" ++ s) = ⟨.none, [⟨s, h⟩]⟩ := by
  have hpieces : pieces ('.' :: '/' :: s.toList) = [['.'], s.toList] := by
    simp [pieces, pieces_of_slash_not_mem h.2.2]
  have hroot : rootOf ('.' :: '/' :: s.toList) = .none := rfl
  have hdot : component? ['.'] = none := rfl
  have htext : ("./" ++ s).toList = '.' :: '/' :: s.toList := by simp
  rw [ofString, htext, hroot, hpieces, List.filterMap_cons_none hdot,
    List.filterMap_cons_some (component?_val ⟨s, h⟩), List.filterMap_nil]

theorem isComponent_append {s t : String} (hs : '/' ∉ s.toList) (ht : '/' ∉ t.toList)
    (h : 1 < s.length + t.length) : IsComponent (s ++ t) := by
  have hne (u : String) (hu : u.length ≤ 1) : s ++ t ≠ u := by
    rintro rfl
    rw [String.length_append] at hu
    omega
  refine ⟨hne "" (by decide), hne "." (by decide), ?_⟩
  rw [String.toList_append, List.mem_append]
  exact not_or.mpr ⟨hs, ht⟩

/-- The name of a path with an ending is a name again, also that of a path without one. -/
theorem isComponent_name_append (p : FilePath) {ending : String} (he : '/' ∉ ending.toList)
    (h : 1 < ending.length) : IsComponent (p.name ++ ending) :=
  isComponent_append p.slash_not_mem_name he (Nat.lt_add_left _ h)

end Intake.FilePath
