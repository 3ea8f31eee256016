import Intake.Extractor.Basic
import Intake.Proofs.Sorting
import Mathlib.Data.List.Nodup

/-!
# The order of candidates

Candidates stand in the strict order of cost, priority and name, which no two of them share.
-/
namespace Intake

/-- Whether one extractor comes before another for a media type and a size. -/
def Extractor.Precedes (mimeType : String) (size : Int) (d e : Extractor) : Prop :=
  d.cost mimeType size < e.cost mimeType size ∨
    (d.cost mimeType size = e.cost mimeType size ∧
      (d.priority < e.priority ∨ (d.priority = e.priority ∧ d.name < e.name)))

namespace Registry

variable {mimeType : String} {size : Int}

theorem before_trans (c d e : Extractor) (h : c.before mimeType size d) (h' : d.before mimeType size e) :
    c.before mimeType size e := by
  simp only [Extractor.before, decide_eq_true_eq] at *
  have hn (hc : c.name ≤ d.name) (hd : d.name ≤ e.name) : c.name ≤ e.name := String.le_trans hc hd
  grind

theorem before_total (d e : Extractor) : d.before mimeType size e || e.before mimeType size d := by
  simp only [Extractor.before, Bool.or_eq_true, decide_eq_true_eq]
  have hn : d.name ≤ e.name ∨ e.name ≤ d.name := String.le_total ..
  grind

theorem precedes_of_before {d e : Extractor} (h : d.before mimeType size e) (hne : d.name ≠ e.name) :
    d.Precedes mimeType size e := by
  simp only [Extractor.before, decide_eq_true_eq] at h
  have hn (hle : d.name ≤ e.name) : d.name < e.name := by
    by_contra hlt
    exact hne (String.le_antisymm hle (String.not_lt.mp hlt))
  unfold Extractor.Precedes
  grind

theorem precedes_asymm {d e : Extractor} (h : d.Precedes mimeType size e) : ¬e.Precedes mimeType size d := by
  have hn (hlt : d.name < e.name) : ¬e.name < d.name := String.lt_asymm hlt
  unfold Extractor.Precedes at h ⊢
  grind

theorem nodup_candidates (r : Registry) (mimeType : String) (size : Int) :
    ((r.candidates mimeType size).map Extractor.name).Nodup := by
  rw [((r.candidates_perm mimeType size).map Extractor.name).nodup_iff]
  exact r.nodup.sublist (List.filter_sublist.map Extractor.name)

theorem mem_candidates {r : Registry} {x : Extractor} :
    x ∈ r.candidates mimeType size ↔ x ∈ r.extractors ∧ x.canProcess mimeType = true := by
  rw [candidates, List.mem_mergeSort, List.mem_filter]

theorem pairwise_candidates (r : Registry) (mimeType : String) (size : Int) :
    (r.candidates mimeType size).Pairwise (Extractor.Precedes mimeType size) := by
  have hs : (r.candidates mimeType size).Pairwise fun d e => d.before mimeType size e = true :=
    List.pairwise_mergeSort before_trans before_total (r.extractors.filter fun e => e.canProcess mimeType)
  have hn := List.pairwise_map.mp (r.nodup_candidates mimeType size)
  exact hs.imp₂ (fun d e => precedes_of_before) hn

/-- Registries that hold the same extractors have the same candidates, in the same order. -/
theorem candidates_eq_of_same {r r' : Registry} (h : ∀ x, x ∈ r.extractors ↔ x ∈ r'.extractors)
    (mimeType : String) (size : Int) : r.candidates mimeType size = r'.candidates mimeType size := by
  have hp : r.extractors.Perm r'.extractors :=
    (List.perm_ext_iff_of_nodup (.of_map _ r.nodup) (.of_map _ r'.nodup)).mpr h
  refine Sorting.mergeSort_eq_of_perm before_trans before_total
    (r.nodup.sublist (List.filter_sublist.map Extractor.name)) ?_ (hp.filter _)
  intro d _ e _ hde hed
  by_contra hne
  exact precedes_asymm (precedes_of_before hde hne) (precedes_of_before hed (Ne.symm hne))

end Registry
end Intake
