import OpenmrnCue.Library.Except
import Mathlib.Order.Basic

/-! Buffers of a fixed length whose accesses are checked.  A read or a write outside of the buffer
is a fault that stops the computation, so a computation that ends has stayed inside of its
buffers. -/

namespace Buffer

/-- An access outside of a buffer, at this index. -/
inductive Fault where
  | read (index : Nat)
  | write (index : Nat)
deriving DecidableEq, Repr

variable {α : Type} {m n : Nat}

/-- The element at `i`. -/
def read (b : Vector α n) (i : Nat) : Except Fault α :=
  if h : i < n then .ok b[i] else .error (.read i)

/-- The buffer with `x` at `i`. -/
def write (b : Vector α n) (i : Nat) (x : α) : Except Fault (Vector α n) :=
  if h : i < n then .ok (b.set i x) else .error (.write i)

/-- The first `k` elements of `src` from `s` on, one after the other, to `d` and the places after
it in `dst`. -/
def copy (dst : Vector α m) (d : Nat) (src : Vector α n) (s : Nat) :
    Nat → Except Fault (Vector α m)
  | 0 => .ok dst
  | k + 1 => do
    let dst ← copy dst d src s k
    let x ← read src (s + k)
    write dst (d + k) x

theorem read_of_lt {b : Vector α n} {i : Nat} (h : i < n) : read b i = .ok b[i] := dif_pos h

theorem read_eq_ok {b : Vector α n} {i : Nat} {x : α} :
    read b i = .ok x ↔ ∃ h : i < n, b[i] = x := by
  unfold read
  by_cases h : i < n <;> simp [h]

theorem exists_read {b : Vector α n} {i : Nat} : (∃ x, read b i = .ok x) ↔ i < n := by
  simp [read_eq_ok]

theorem write_of_lt {b : Vector α n} {i : Nat} (h : i < n) (x : α) :
    write b i x = .ok (b.set i x) := dif_pos h

theorem write_eq_ok {b b' : Vector α n} {i : Nat} {x : α} :
    write b i x = .ok b' ↔ ∃ h : i < n, b.set i x = b' := by
  unfold write
  by_cases h : i < n <;> simp [h]

/-- A copy ends just when both ranges are inside of their buffers. -/
theorem exists_copy {dst : Vector α m} {d : Nat} {src : Vector α n} {s k : Nat} :
    (∃ b, copy dst d src s k = .ok b) ↔ k = 0 ∨ (s + k ≤ n ∧ d + k ≤ m) := by
  induction k with
  | zero => simp [copy]
  | succ k ih =>
    constructor
    · rintro ⟨b, hb⟩
      obtain ⟨mid, hmid, hb⟩ := Except.bind_eq_ok.mp hb
      obtain ⟨x, hx, hb⟩ := Except.bind_eq_ok.mp hb
      obtain ⟨hs, -⟩ := read_eq_ok.mp hx
      obtain ⟨hd, -⟩ := write_eq_ok.mp hb
      omega
    · intro h
      obtain ⟨mid, hmid⟩ := ih.mpr (by omega)
      have hs : s + k < n := by omega
      have hd : d + k < m := by omega
      refine ⟨mid.set (d + k) src[s + k], ?_⟩
      simp only [copy, hmid, Except.ok_bind, read_of_lt hs, write_of_lt hd]

/-- What a copy leaves: the elements of the source in its range, the old ones elsewhere. -/
theorem copy_getElem {dst b : Vector α m} {d : Nat} {src : Vector α n} {s k : Nat}
    (h : copy dst d src s k = .ok b) (i : Nat) (hi : i < m) :
    (i < d ∨ d + k ≤ i → b[i] = dst[i]) ∧
      (d ≤ i → i < d + k → src[s + (i - d)]? = some b[i]) := by
  induction k generalizing b with
  | zero =>
    cases h
    exact ⟨fun _ => rfl, by omega⟩
  | succ k ih =>
    obtain ⟨mid, hmid, h⟩ := Except.bind_eq_ok.mp h
    obtain ⟨x, hx, h⟩ := Except.bind_eq_ok.mp h
    obtain ⟨hs, rfl⟩ := read_eq_ok.mp hx
    obtain ⟨hd, rfl⟩ := write_eq_ok.mp h
    obtain ⟨hout, hin⟩ := ih hmid
    by_cases hik : i = d + k
    · subst hik
      refine ⟨by omega, fun _ _ => ?_⟩
      have hidx : s + (d + k - d) = s + k := by omega
      rw [Vector.getElem_set_self, hidx, Vector.getElem?_eq_getElem hs]
    · rw [Vector.getElem_set_ne _ _ (Ne.symm hik)]
      exact ⟨fun h => hout (by omega), fun h h' => hin h (by omega)⟩

theorem copy_getElem_outside {dst b : Vector α m} {d : Nat} {src : Vector α n} {s k i : Nat}
    (h : copy dst d src s k = .ok b) (hi : i < m) (hout : i < d ∨ d + k ≤ i) : b[i] = dst[i] :=
  (copy_getElem h i hi).1 hout

theorem copy_getElem_inside {dst b : Vector α m} {d : Nat} {src : Vector α n} {s k i : Nat}
    (h : copy dst d src s k = .ok b) (hi : d + i < m) (hk : i < k) :
    src[s + i]? = some b[d + i] := by
  have h' := (copy_getElem h (d + i) hi).2 (by omega) (by omega)
  rwa [Nat.add_sub_cancel_left] at h'

end Buffer
