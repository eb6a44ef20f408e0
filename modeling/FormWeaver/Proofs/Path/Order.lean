import FormWeaver.Path.Order
import Mathlib.Data.List.Lex
import Mathlib.Data.List.Pairwise
import Mathlib.Data.List.Sort

/-!
# The order of paths is linear

Paths are compared by their keys, and keys are compared lexicographically. So the order is linear up to
the spelling of the paths, and different paths are sorted strictly.
-/

namespace FormWeaver.Path

theorem le_iff {p q : Path} : p.le q = true ↔ p.key ≤ q.key := by
  unfold le lt
  rw [Bool.not_eq_true', decide_eq_false_iff_not, not_lt]

theorem lt_iff {p q : Path} : p.lt q = true ↔ p.key < q.key := by
  unfold lt
  rw [decide_eq_true_iff]

theorem pairwise_sort (ps : List Path) : (sort ps).Pairwise fun p q => p.le q = true := by
  apply List.pairwise_mergeSort
  · intro p q r hpq hqr
    exact le_iff.mpr (le_trans (le_iff.mp hpq) (le_iff.mp hqr))
  · intro p q
    rw [Bool.or_eq_true, le_iff, le_iff]
    exact le_total p.key q.key

theorem components_ne_of_lt {p q : Path} (h : p.lt q = true) : p.components ≠ q.components := by
  intro hc
  have hkey : p.key = q.key := by
    unfold key
    rw [hc]
  exact absurd (lt_iff.mp h) (hkey ▸ lt_irrefl _)

/-- **Different paths are sorted strictly.** -/
theorem pairwise_lt_sort {ps : List Path} (h : ps.Pairwise fun p q => p.components ≠ q.components) :
    (sort ps).Pairwise fun p q => p.lt q = true := by
  have hne : (sort ps).Pairwise fun p q => p.components ≠ q.components :=
    (List.mergeSort_perm ps le).symm.pairwise h fun h => h.symm
  refine ((pairwise_sort ps).and hne).imp ?_
  intro p q ⟨hle, hne⟩
  apply lt_iff.mpr
  apply lt_of_le_of_ne (le_iff.mp hle)
  intro hkey
  have hsame := key_eq_iff.mp hkey
  unfold same at hsame
  exact hne (eq_of_beq hsame)

/-- A list in strict path order is told by its members. -/
theorem eq_of_pairwise_lt {ps qs : List Path} (hp : ps.Pairwise fun p q => p.lt q = true)
    (hq : qs.Pairwise fun p q => p.lt q = true) (h : ∀ p, p ∈ ps ↔ p ∈ qs) : ps = qs := by
  have hirrefl : Std.Irrefl fun p q : Path => p.lt q = true :=
    ⟨fun p hlt => lt_irrefl _ (lt_iff.mp hlt)⟩
  have hantisymm : Std.Antisymm fun p q : Path => p.lt q = true :=
    ⟨fun p q hpq hqp => absurd (lt_iff.mp hqp) (lt_asymm (lt_iff.mp hpq))⟩
  exact hp.eq_of_mem_iff hq h

end FormWeaver.Path
