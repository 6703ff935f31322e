import Mathlib.Algebra.BigOperators.Group.List.Basic
import Mathlib.Data.List.Nodup
import Mathlib.Algebra.Order.Ring.Int

/-! Sums over the values of an ordered map, and what an insertion does to them. -/

namespace MapSum

variable {κ α β : Type} {cmp : κ → κ → Ordering}

/-- The sum of `f` over the values. -/
def sum (m : Std.TreeMap κ α cmp) (f : α → Nat) : Nat := (m.toList.map fun e => f e.2).sum

@[simp] theorem sum_empty (f : α → Nat) : sum (∅ : Std.TreeMap κ α cmp) f = 0 := rfl

theorem sum_map (m : Std.TreeMap κ α cmp) (g : α → β) (f : β → Nat) :
    sum (m.map fun _ x => g x) f = sum m fun x => f (g x) := by
  simp [sum, Function.comp_def]

theorem sum_add (m : Std.TreeMap κ α cmp) (f g : α → Nat) :
    sum m (fun x => f x + g x) = sum m f + sum m g := by
  simp [sum, List.sum_map_add]

variable [BEq κ] [LawfulBEq κ] [Std.TransCmp cmp] [Std.LawfulEqCmp cmp] [Std.LawfulBEqCmp cmp]

theorem nodup_toList (m : Std.TreeMap κ α cmp) : m.toList.Nodup := by
  refine (Std.TreeMap.distinct_keys_toList (t := m)).imp ?_
  rintro a b hne rfl
  exact hne Std.ReflCmp.compare_self

/-- The entry of `k`, and the others. -/
theorem toList_perm {m : Std.TreeMap κ α cmp} {k : κ} {x : α} (h : m[k]? = some x) :
    m.toList.Perm ((k, x) :: m.toList.filter (¬k == ·.1)) := by
  have hmem : (k, x) ∈ m.toList := Std.TreeMap.mem_toList_iff_getElem?_eq_some.mpr h
  refine (List.perm_ext_iff_of_nodup (nodup_toList m) ?_).mpr fun e => ?_
  · refine List.nodup_cons.mpr ⟨fun hk => ?_, (nodup_toList m).filter _⟩
    simp at hk
  · obtain ⟨k', x'⟩ := e
    by_cases hk : k' = k
    · subst hk
      rw [Std.TreeMap.mem_toList_iff_getElem?_eq_some, h, Option.some.injEq]
      simpa using eq_comm
    · simp [hk, Ne.symm hk]

theorem sum_insert (m : Std.TreeMap κ α cmp) (k : κ) (x : α) (f : α → Nat) :
    sum (m.insert k x) f + (m[k]?.map f).getD 0 = sum m f + f x := by
  have hinsert : sum (m.insert k x) f =
      f x + ((m.toList.filter (¬k == ·.1)).map fun e => f e.2).sum := by
    rw [sum, (Std.TreeMap.toList_insert_perm.map fun e => f e.2).sum_eq, List.map_cons,
      List.sum_cons]
  cases hk : m[k]? with
  | none =>
    have hfilter : m.toList.filter (¬k == ·.1) = m.toList := by
      refine List.filter_eq_self.mpr fun e he => ?_
      obtain ⟨k', x'⟩ := e
      rw [Std.TreeMap.mem_toList_iff_getElem?_eq_some] at he
      by_cases hkk : k = k'
      · subst hkk
        rw [hk] at he
        cases he
      · simp [hkk]
    rw [hinsert, hfilter]
    simp only [sum, Option.map_none, Option.getD_none]
    omega
  | some y =>
    have hsum : sum m f = f y + ((m.toList.filter (¬k == ·.1)).map fun e => f e.2).sum := by
      rw [sum, ((toList_perm hk).map fun e => f e.2).sum_eq, List.map_cons, List.sum_cons]
    rw [hinsert, hsum]
    simp only [Option.map_some, Option.getD_some]
    omega

end MapSum
