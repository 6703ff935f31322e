import Mathlib.Data.List.Nodup
import Mathlib.Data.Set.Lattice
import Mathlib.Order.CompletePartialOrder

/-! Elements handed out from regions.  Every element that has been handed out is different from the
others, and belongs to no region any more; regions are split in two, or lose elements. -/

namespace Regions

variable {ι α : Type*} [DecidableEq ι]

/-- The regions have nothing in common with each other or with what has been used, and nothing has
been used twice. -/
structure Apart (regions : ι → Set α) (used : List α) : Prop where
  disjoint : ∀ i j, i ≠ j → Disjoint (regions i) (regions j)
  unused : ∀ i, ∀ x ∈ used, x ∉ regions i
  nodup : used.Nodup

variable {regions : ι → Set α} {used : List α} {i : ι} {keep give : Set α} {x : α}

/-- A region loses elements. -/
theorem Apart.shrink (h : Apart regions used) (hkeep : keep ⊆ regions i) :
    Apart (Function.update regions i keep) used where
  disjoint j j' hne := by
    have hsub : ∀ j, Function.update regions i keep j ⊆ regions j := by
      intro j
      by_cases hj : j = i
      · subst hj
        rwa [Function.update_self]
      · rw [Function.update_of_ne hj]
    exact (h.disjoint j j' hne).mono (hsub j) (hsub j')
  unused j y hy hmem := by
    by_cases hj : j = i
    · subst hj
      rw [Function.update_self] at hmem
      exact h.unused j y hy (hkeep hmem)
    · rw [Function.update_of_ne hj] at hmem
      exact h.unused j y hy hmem
  nodup := h.nodup

/-- A region is split: a part of it becomes another region. -/
theorem Apart.split (h : Apart regions used) (hkeep : keep ⊆ regions i) (hgive : give ⊆ regions i)
    (hparts : Disjoint keep give) (k : ι) :
    Apart (Function.update (Function.update regions i keep) k give) used where
  disjoint j j' hne' := by
    have hrest : ∀ j, j ≠ k → Disjoint (Function.update regions i keep j) give := by
      intro j hj
      by_cases hji : j = i
      · subst hji
        rwa [Function.update_self]
      · rw [Function.update_of_ne hji]
        exact (h.disjoint j i hji).mono_right hgive
    by_cases hj : j = k
    · subst hj
      rw [Function.update_self, Function.update_of_ne hne'.symm]
      exact (hrest j' hne'.symm).symm
    · by_cases hj' : j' = k
      · subst hj'
        rw [Function.update_self, Function.update_of_ne hj]
        exact hrest j hj
      · rw [Function.update_of_ne hj, Function.update_of_ne hj']
        exact (h.shrink hkeep).disjoint j j' hne'
  unused j y hy hmem := by
    by_cases hj : j = k
    · subst hj
      rw [Function.update_self] at hmem
      exact h.unused i y hy (hgive hmem)
    · rw [Function.update_of_ne hj] at hmem
      exact (h.shrink hkeep).unused j y hy hmem
  nodup := h.nodup

/-- An element of a region is handed out. -/
theorem Apart.use (h : Apart regions used) (hx : x ∈ regions i) (hkeep : keep ⊆ regions i)
    (hgone : x ∉ keep) : Apart (Function.update regions i keep) (used ++ [x]) where
  disjoint := (h.shrink hkeep).disjoint
  unused j y hy hmem := by
    rcases List.mem_append.mp hy with hy | hy
    · exact (h.shrink hkeep).unused j y hy hmem
    · obtain rfl := List.mem_singleton.mp hy
      by_cases hj : j = i
      · subst hj
        rw [Function.update_self] at hmem
        exact hgone hmem
      · rw [Function.update_of_ne hj] at hmem
        exact Set.disjoint_left.mp (h.disjoint j i hj) hmem hx
  nodup := by
    refine h.nodup.append (List.nodup_singleton x) fun y hy hyx => ?_
    obtain rfl := List.mem_singleton.mp hyx
    exact h.unused i y hy hx

end Regions
