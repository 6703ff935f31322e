import OpenmrnCue.Library.Conformance
import Mathlib.Data.List.Iterate
import Mathlib.Data.List.Rotate

/-! Turns in rotation.  The head of a queue has a turn of a first kind and then one of a second
kind, and goes to the back of the queue.  The `k`-th turn is known from the first queue.  Where the
participants are found by a search that goes round, the queue is the list of all that can be found
from where the search starts. -/

namespace Rotation

open Conformance

variable {α : Type*}

/-! ### A search that goes round -/

/-- What a search of `n` steps from `a` can find. -/
def found (next : α → α) (p : α → Bool) (n : ℕ) (a : α) : List α := (List.iterate next a n).filter p

section Search

variable {next : α → α} {p : α → Bool} {n : ℕ} {a c : α} {rest : List α}

theorem iterate_next (hround : next^[n] a = a) :
    List.iterate next (next a) n = (List.iterate next a n).rotate 1 := by
  cases n with
  | zero => rfl
  | succ n =>
    have hlast : List.iterate next (next a) (n + 1) = List.iterate next (next a) n ++ [a] := by
      rw [List.iterate_add next (next a) n 1]
      change _ ++ [next^[n + 1] a] = _
      rw [hround]
    rw [hlast, List.iterate, List.rotate_cons_succ, List.rotate_zero]

theorem iterate_iterate_next (hround : next^[n] a = a) (k : ℕ) :
    List.iterate next (next^[k] a) n = (List.iterate next a n).rotate k := by
  induction k with
  | zero => rw [List.rotate_zero, Function.iterate_zero_apply]
  | succ k ih =>
    have hround' : next^[n] (next^[k] a) = next^[k] a := by
      rw [← Function.iterate_add_apply, Nat.add_comm, Function.iterate_add_apply, hround]
    rw [Function.iterate_succ_apply', iterate_next hround', ih, List.rotate_rotate]

/-- A search can start from the first that it finds, and finds the same. -/
theorem found_from_head (hround : next^[n] a = a) (h : found next p n a = c :: rest) :
    found next p n c = c :: rest ∧ found next p n (next c) = rest ++ [c] := by
  obtain ⟨before, behind, hlist, hbefore, hc, hbehind⟩ := List.filter_eq_cons_iff.mp h
  have hhead : c = next^[before.length] a := by
    have hlt : before.length < (List.iterate next a n).length := by
      rw [hlist, List.length_append, List.length_cons]
      omega
    rw [← List.getElem_iterate next a n before.length hlt]
    simp only [hlist, List.getElem_append_right (Nat.le_refl _), Nat.sub_self,
      List.getElem_cons_zero]
  have hnone : before.filter p = [] := List.filter_eq_nil_iff.mpr hbefore
  have hfrom : List.iterate next c n = c :: (behind ++ before) := by
    rw [hhead, iterate_iterate_next hround, hlist, List.rotate_append_length_eq, ← hhead]
    rfl
  have hround' : next^[n] c = c := by
    rw [hhead, ← Function.iterate_add_apply, Nat.add_comm, Function.iterate_add_apply, hround]
  have hfound : found next p n c = c :: rest := by
    rw [found, hfrom, List.filter_cons_of_pos hc, List.filter_append, hnone, hbehind,
      List.append_nil]
  refine ⟨hfound, ?_⟩
  rw [found, iterate_next hround', hfrom, List.rotate_cons_succ, List.rotate_zero,
    List.filter_append, List.filter_append, hnone, hbehind, List.append_nil]
  rw [List.filter_cons_of_pos hc]
  rfl

end Search

/-! ### Turns -/

/-- The turns to come: the queue, and whether its head is at the second of its turns. -/
structure Turns (α : Type*) where
  queue : List α
  second : Bool

/-- The next turn with its kind, and the turns that come after it. -/
def Turns.next (t : Turns α) : Option ((α × Bool) × Turns α) :=
  t.queue.head?.map fun head =>
    ((head, t.second), ⟨if t.second then t.queue.rotate 1 else t.queue, !t.second⟩)

/-- The `k`-th turn. -/
def Turns.turn (t : Turns α) (k : ℕ) : Option (α × Bool) :=
  let k' := if t.second then k + 1 else k
  (t.queue[k' / 2 % t.queue.length]?).map fun a => (a, decide (k' % 2 = 1))

theorem Turns.turn_zero (t : Turns α) : t.turn 0 = t.next.map Prod.fst := by
  obtain ⟨queue, second⟩ := t
  cases second <;> simp [turn, next, Function.comp_def, List.head?_eq_getElem?]

theorem Turns.next_eq_some {t u : Turns α} {a : α × Bool} (h : t.next = some (a, u)) :
    ∃ head rest, t.queue = head :: rest ∧ a = (head, t.second) ∧
      u = ⟨if t.second then rest ++ [head] else t.queue, !t.second⟩ := by
  obtain ⟨head, hhead, hu⟩ := Option.map_eq_some_iff.mp h
  obtain ⟨rest, hqueue⟩ := List.head?_eq_some_iff.mp hhead
  cases hu
  refine ⟨head, rest, hqueue, rfl, ?_⟩
  rw [hqueue, List.rotate_cons_succ, List.rotate_zero]

theorem Turns.turn_succ {t u : Turns α} {a : α × Bool} (h : t.next = some (a, u)) (k : ℕ) :
    t.turn (k + 1) = u.turn k := by
  obtain ⟨head, rest, hqueue, -, rfl⟩ := next_eq_some h
  obtain ⟨queue, second⟩ := t
  cases second with
  | false => rfl
  | true =>
    cases hqueue
    have hhalf : (k + 1 + 1) / 2 = k / 2 + 1 := by omega
    have hkind : (k + 1 + 1) % 2 = k % 2 := by omega
    have hrotate : rest ++ [head] = (head :: rest).rotate 1 := by
      rw [List.rotate_cons_succ, List.rotate_zero]
    have hlt : k / 2 % (head :: rest).length < (head :: rest).length :=
      Nat.mod_lt _ (Nat.succ_pos _)
    simp only [turn, if_true, Bool.not_true, Bool.false_eq_true, if_false, hhalf, hkind, hrotate,
      List.length_rotate]
    rw [List.getElem?_rotate hlt, Nat.mod_add_mod]

/-- A turn is taken. -/
def Turns.Step (t : Turns α) (a : α × Bool) (u : Turns α) : Prop := t.next = some (a, u)

variable {t u : Turns α} {turns : List (α × Bool)}

theorem getElem?_of_steps (h : Steps Turns.Step t turns u) {k : ℕ} (hk : k < turns.length) :
    turns[k]? = t.turn k := by
  induction h generalizing k with
  | nil t => cases hk
  | cons hnext hrest ih =>
    cases k with
    | zero =>
      rw [Turns.turn_zero, show Turns.next _ = _ from hnext]
      rfl
    | succ k =>
      rw [List.getElem?_cons_succ, ih (Nat.lt_of_succ_lt_succ hk), Turns.turn_succ hnext]

/-- No one leaves the queue or joins it. -/
theorem perm_of_steps (h : Steps Turns.Step t turns u) : u.queue.Perm t.queue := by
  refine h.invariant (I := fun u => u.queue.Perm t.queue) (fun u a v hstep hperm => ?_) (.refl _)
  obtain ⟨head, rest, hqueue, -, rfl⟩ := Turns.next_eq_some hstep
  refine List.Perm.trans ?_ hperm
  dsimp only
  split
  · rw [hqueue]
    exact List.perm_append_singleton head rest
  · exact .refl _

end Rotation
