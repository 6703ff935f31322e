import Mathlib.Logic.Function.Basic

/-! Tables of names for the slots of a stack frame.  A name has a type and an offset; the slots of
the frame are the offsets from 0 on, and a name below the frame has a negative one.  A scope adds
names for new slots on top, and it ends when exactly these names are taken out again. -/

/-- A table from names to types and offsets. -/
abbrev SlotTable (κ τ : Type*) := κ → Option (τ × Int)

namespace SlotTable

variable {κ τ : Type*} {t t' t'' : SlotTable κ τ} {n n' : Nat}

/-- The slots below `n` have names, and there are no slots above. -/
structure Filled (t : SlotTable κ τ) (n : Nat) : Prop where
  below : ∀ {name type ofs}, t name = some (type, ofs) → ofs < n
  named : ∀ i < n, ∃ name type, t name = some (type, (i : Int))

/-- The names of `t`, and others for slots from `n` on. -/
structure Extends (t : SlotTable κ τ) (n : Nat) (t' : SlotTable κ τ) : Prop where
  keeps : ∀ {name x}, t name = some x → t' name = some x
  fresh : ∀ {name type ofs}, t' name = some (type, ofs) →
    t name = some (type, ofs) ∨ (n : Int) ≤ ofs

theorem Extends.refl (t : SlotTable κ τ) (n : Nat) : Extends t n t := ⟨id, .inl⟩

theorem Extends.trans (h : Extends t n t') (h' : Extends t' n' t'') (hle : n ≤ n') :
    Extends t n t'' where
  keeps := fun hname => h'.keeps (h.keeps hname)
  fresh := by
    intro name type ofs hname
    rcases h'.fresh hname with hname | hofs
    · exact h.fresh hname
    · exact .inr (Int.le_trans (Int.ofNat_le.mpr hle) hofs)

/-- No new slots, no new names. -/
theorem Extends.eq_of_filled (h : Extends t n t') (hfilled : Filled t' n) : t' = t := by
  funext name
  cases hname : t' name with
  | none =>
    cases hold : t name with
    | none => rfl
    | some x =>
      rw [h.keeps hold] at hname
      cases hname
  | some x =>
    obtain ⟨type, ofs⟩ := x
    rcases h.fresh hname with hold | hofs
    · exact hold.symm
    · exact absurd (hfilled.below hname) (Int.not_lt.mpr hofs)

section Declare

variable [DecidableEq κ]

/-- A new name for the slot on top. -/
theorem Extends.declare {name : κ} (hnew : t name = none) (type : τ) :
    Extends t n (Function.update t name (some (type, (n : Int)))) where
  keeps := by
    intro other x hother
    have hne : other ≠ name := by
      rintro rfl
      rw [hnew] at hother
      cases hother
    rwa [Function.update_of_ne hne]
  fresh := by
    intro other type' ofs hother
    by_cases hname : other = name
    · subst hname
      rw [Function.update_self] at hother
      cases hother
      exact .inr (Int.le_refl _)
    · rw [Function.update_of_ne hname] at hother
      exact .inl hother

theorem Filled.declare (h : Filled t n) {name : κ} (hnew : t name = none) (type : τ) :
    Filled (Function.update t name (some (type, (n : Int)))) (n + 1) where
  below := by
    intro other type' ofs hother
    rcases (Extends.declare (n := n) hnew type).fresh hother with hold | hofs
    · exact Int.lt_trans (h.below hold) (by omega)
    · by_cases hname : other = name
      · subst hname
        rw [Function.update_self] at hother
        cases hother
        omega
      · rw [Function.update_of_ne hname] at hother
        exact Int.lt_trans (h.below hother) (by omega)
  named := by
    intro i hi
    by_cases htop : i = n
    · subst htop
      exact ⟨name, type, Function.update_self ..⟩
    · obtain ⟨other, type', hother⟩ := h.named i (by omega)
      exact ⟨other, type', (Extends.declare hnew type).keeps hother⟩

end Declare

/-- The names that are left when those with an offset in `out` are taken out. -/
def remove (out : Int → Bool) (t : SlotTable κ τ) : SlotTable κ τ := fun name =>
  (t name).filter fun x => !out x.2

theorem remove_eq_some {out : Int → Bool} {name : κ} {x : τ × Int} :
    t.remove out name = some x ↔ t name = some x ∧ out x.2 = false := by
  simp [remove, Option.filter_eq_some_iff]

/-- Taking out the names from 0 to `n` ends a scope with slots of its own only if its only slot is
slot 0. -/
theorem Extends.remove_low_iff (h : Extends t n t') (hfilled : Filled t n) (hfilled' : Filled t' n')
    (hlt : n < n') :
    t'.remove (fun ofs => decide (0 ≤ ofs) && decide (ofs ≤ n)) = t ↔ n = 0 ∧ n' = 1 := by
  constructor
  · intro heq
    have hzero : n = 0 := by
      by_contra hn
      obtain ⟨name, type, hname⟩ := hfilled.named 0 (by omega)
      rw [← heq, remove_eq_some] at hname
      simp at hname
    refine ⟨hzero, ?_⟩
    by_contra hone
    subst hzero
    obtain ⟨name, type, hname⟩ := hfilled'.named 1 (by omega)
    have hkept : t'.remove (fun ofs => decide (0 ≤ ofs) && decide (ofs ≤ (0 : Nat))) name =
        some (type, ((1 : Nat) : Int)) := remove_eq_some.mpr ⟨hname, by simp⟩
    rw [heq] at hkept
    exact absurd (hfilled.below hkept) (by omega)
  · rintro ⟨rfl, rfl⟩
    funext name
    refine Option.ext fun x => ?_
    obtain ⟨type, ofs⟩ := x
    rw [remove_eq_some]
    constructor
    · rintro ⟨hname, hofs⟩
      rcases h.fresh hname with hold | hge
      · exact hold
      · have hlt := hfilled'.below hname
        simp at hofs
        omega
    · intro hold
      have hlt := hfilled.below hold
      refine ⟨h.keeps hold, ?_⟩
      simp only [Bool.and_eq_false_iff, decide_eq_false_iff_not]
      omega

end SlotTable
