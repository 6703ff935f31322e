import Mathlib.Data.List.Basic

/-! Values that are handed on along a row of cells.  Stage `k` writes cell `k + 1` from cell `k`,
and nothing else.  The stages run in any order and as often as they like; once they have run in
order, among other runs, each cell has the value that the first one leads to, and it keeps it. -/

namespace Cascade

variable {β : Type*}

/-- The values that the first cell leads to. -/
def settled (f : ℕ → β → β) (x : β) : ℕ → β
  | 0 => x
  | k + 1 => f k (settled f x k)

/-- A run of a stage of so many, by the values of the cells before and after it. -/
structure Stage (f : ℕ → β → β) (n k : ℕ) (v v' : ℕ → β) : Prop where
  lt : k < n
  written : v' (k + 1) = f k (v k)
  kept : ∀ j ≤ n, j ≠ k + 1 → v' j = v j

/-- Runs of stages, one after the other.  In between, nothing happens to the cells. -/
inductive Runs (f : ℕ → β → β) (n : ℕ) : List ℕ → (ℕ → β) → (ℕ → β) → Prop
  | start (v : ℕ → β) : Runs f n [] v v
  | stage {stages : List ℕ} {v v' v'' : ℕ → β} {k : ℕ} (h : Runs f n stages v v')
      (hstage : Stage f n k v' v'') : Runs f n (stages ++ [k]) v v''
  | still {stages : List ℕ} {v v' v'' : ℕ → β} (h : Runs f n stages v v')
      (hkept : ∀ j ≤ n, v'' j = v' j) : Runs f n stages v v''

/-- The cells up to this one have their values. -/
def SettledTo (f : ℕ → β → β) (x : β) (m : ℕ) (v : ℕ → β) : Prop := ∀ j ≤ m, v j = settled f x j

variable {f : ℕ → β → β} {x : β} {n m k : ℕ} {stages : List ℕ} {v v' : ℕ → β}

/-- A stage that reads and writes settled cells writes what is there. -/
theorem SettledTo.stage (h : SettledTo f x m v) (hm : m ≤ n) (hstage : Stage f n k v v') :
    SettledTo f x m v' := by
  intro j hj
  by_cases hjk : j = k + 1
  · subst hjk
    rw [hstage.written, h k (by omega)]
    rfl
  · rw [hstage.kept j (by omega) hjk]
    exact h j hj

/-- The stage behind the settled cells settles the next one. -/
theorem SettledTo.next (h : SettledTo f x m v) (hstage : Stage f n m v v') :
    SettledTo f x (m + 1) v' := by
  have hlt := hstage.lt
  intro j hj
  rcases Nat.lt_or_eq_of_le hj with hj | rfl
  · exact h.stage (by omega) hstage j (by omega)
  · rw [hstage.written, h m (Nat.le_refl m)]
    rfl

theorem SettledTo.still (h : SettledTo f x m v) (hm : m ≤ n) (hkept : ∀ j ≤ n, v' j = v j) :
    SettledTo f x m v' := by
  intro j hj
  rw [hkept j (by omega)]
  exact h j hj

/-- Settled cells stay so. -/
theorem Runs.keeps (h : Runs f n stages v v') (hm : m ≤ n) (hv : SettledTo f x m v) :
    SettledTo f x m v' := by
  induction h with
  | start v => exact hv
  | stage _ hstage ih => exact (ih hv).stage hm hstage
  | still _ hkept ih => exact (ih hv).still hm hkept

/-- The stages that have run in order have settled their cells. -/
theorem Runs.settles (h : Runs f n stages v v') (hv : v 0 = x) (hm : m ≤ n)
    (horder : List.Sublist (List.range m) stages) : SettledTo f x m v' := by
  induction h generalizing m with
  | start v =>
    intro j hj
    have hzero : m = 0 := List.range_eq_nil.mp (List.sublist_nil.mp horder)
    obtain rfl : j = 0 := by omega
    exact hv
  | still _ hkept ih => exact (ih hv hm horder).still hm hkept
  | @stage stages v v' v'' k h hstage ih =>
    obtain ⟨past, last, hsplit, hpast, hlast⟩ := List.sublist_append_iff.mp horder
    rcases List.sublist_singleton.mp hlast with rfl | rfl
    · rw [List.append_nil] at hsplit
      exact (ih hv hm (hsplit ▸ hpast)).stage hm hstage
    · -- The last stage in order is the one that runs here.
      cases m with
      | zero => simp at hsplit
      | succ m =>
        rw [List.range_succ] at hsplit
        obtain ⟨rfl, hk⟩ := List.append_inj' hsplit rfl
        obtain rfl := List.singleton_inj.mp hk
        exact (ih hv (by omega) hpast).next hstage

end Cascade
