import Mathlib.Data.List.Sort
import Mathlib.Data.Finset.Card
import Mathlib.Data.List.Induction

/-! Strictly ascending lists as finite sets that are filled one element at a time, and windows of
such lists: what an insertion does to the first elements and to the last ones. -/

namespace Sorted

variable {α : Type*} [LinearOrder α]

/-- The list with `x` in its place. -/
def insert (x : α) (l : List α) : List α := l.orderedInsert (· ≤ ·) x

@[simp] theorem insert_nil (x : α) : insert x [] = [x] := rfl

theorem insert_cons (x y : α) (l : List α) :
    insert x (y :: l) = if x ≤ y then x :: y :: l else y :: insert x l := rfl

@[simp] theorem mem_insert {x y : α} {l : List α} : x ∈ insert y l ↔ x = y ∨ x ∈ l :=
  List.mem_orderedInsert _

@[simp] theorem length_insert (x : α) (l : List α) : (insert x l).length = l.length + 1 :=
  List.orderedInsert_length _ _ _

theorem insert_ascending {x : α} {l : List α} (h : l.Pairwise (· < ·)) (hx : x ∉ l) :
    (insert x l).Pairwise (· < ·) := by
  induction l with
  | nil => simp
  | cons y l ih =>
    rw [List.pairwise_cons] at h
    rw [List.mem_cons, not_or] at hx
    rw [insert_cons]
    split
    next hle =>
      have hlt : x < y := lt_of_le_of_ne hle hx.1
      refine List.pairwise_cons.mpr ⟨?_, List.pairwise_cons.mpr h⟩
      intro z hz
      rcases List.mem_cons.mp hz with rfl | hz
      · exact hlt
      · exact hlt.trans (h.1 z hz)
    next hle =>
      refine List.pairwise_cons.mpr ⟨?_, ih h.2 hx.2⟩
      intro z hz
      rcases mem_insert.mp hz with rfl | hz
      · exact not_le.mp hle
      · exact h.1 z hz

/-- An element that is above the first part is inserted in the second. -/
theorem insert_append_of_above {x : α} {first second : List α} (h : ∀ y ∈ first, y < x) :
    insert x (first ++ second) = first ++ insert x second := by
  induction first with
  | nil => rfl
  | cons y first ih =>
    have hy : ¬ x ≤ y := not_le.mpr (h y (by simp))
    rw [List.cons_append, insert_cons, if_neg hy, ih fun z hz => h z (by simp [hz])]
    rfl

/-- An element that is below the second part is inserted in the first. -/
theorem insert_append_of_below {x : α} {first second : List α} (h : ∀ y ∈ second, x < y) :
    insert x (first ++ second) = insert x first ++ second := by
  induction first with
  | nil =>
    cases second with
    | nil => rfl
    | cons y second => simp [insert_cons, (h y (by simp)).le]
  | cons y first ih =>
    rw [List.cons_append, insert_cons, insert_cons]
    split
    · rfl
    · rw [ih, List.cons_append]

/-- An insertion in the first `n` elements has the first `n` elements of the insertion. -/
theorem take_insert_take (x : α) (l : List α) (n : Nat) :
    (insert x (l.take n)).take n = (insert x l).take n := by
  induction l generalizing n with
  | nil => simp
  | cons y l ih =>
    cases n with
    | zero => simp
    | succ n =>
      rw [List.take_succ_cons, insert_cons, insert_cons]
      split
      · rw [List.take_succ_cons, List.take_succ_cons]
        congr 1
        cases n with
        | zero => simp
        | succ n => simp [List.take_take]
      · rw [List.take_succ_cons, List.take_succ_cons, ih]

theorem dropLast_insert_take {x : α} {l : List α} {n : Nat} (h : n ≤ l.length) :
    (insert x (l.take n)).dropLast = (insert x l).take n := by
  rw [List.dropLast_eq_take, length_insert, List.length_take, Nat.min_eq_left h,
    Nat.add_sub_cancel, take_insert_take]

/-- The first `n` elements stay when the new one is above them. -/
theorem take_insert_of_above {x : α} {l : List α} {n : Nat} (hn : n ≤ l.length)
    (h : ∀ y ∈ l.take n, y < x) : (insert x l).take n = l.take n := by
  have hsplit : insert x l = l.take n ++ insert x (l.drop n) := by
    conv => lhs; rw [← List.take_append_drop n l]
    exact insert_append_of_above h
  rw [hsplit, List.take_append_of_le_length (by simp [hn]), List.take_take, Nat.min_self]

/-- The elements of the first part of an ascending list are below those of the rest. -/
theorem take_lt_drop {l : List α} (hl : l.Pairwise (· < ·)) {n : Nat} {x y : α}
    (hx : x ∈ l.take n) (hy : y ∈ l.drop n) : x < y := by
  rw [← List.take_append_drop n l, List.pairwise_append] at hl
  exact hl.2.2 x hx y hy

/-- An element is among the first `n` ones when fewer than `n` are below it. -/
theorem mem_take_iff {l : List α} (hl : l.Pairwise (· < ·)) {x : α} (hx : x ∈ l) {n : Nat} :
    x ∈ l.take n ↔ (l.filter (· < x)).length < n := by
  induction l generalizing n with
  | nil => simp at hx
  | cons y l ih =>
    rw [List.pairwise_cons] at hl
    cases n with
    | zero => simp
    | succ n =>
      rw [List.take_succ_cons, List.mem_cons]
      rcases List.mem_cons.mp hx with rfl | hx
      · have hnone : (x :: l).filter (· < x) = [] := by
          refine List.filter_eq_nil_iff.mpr fun z hz => ?_
          rcases List.mem_cons.mp hz with rfl | hz
          · simp
          · simpa using (hl.1 z hz).le
        simp [hnone]
      · have hlt : y < x := hl.1 x hx
        rw [List.filter_cons_of_pos (by simpa using hlt), List.length_cons,
          Nat.add_lt_add_iff_right, ← ih hl.2 hx]
        exact or_iff_right hlt.ne'

/-- An element of an ascending list is at the number of the elements below it. -/
theorem length_takeWhile_lt {l : List α} (hl : l.Pairwise (· < ·)) {n : Nat} {x : α}
    (hx : l[n]? = some x) : (l.takeWhile (· < x)).length = n := by
  induction l generalizing n with
  | nil => simp at hx
  | cons y l ih =>
    rw [List.pairwise_cons] at hl
    cases n with
    | zero =>
      obtain rfl : y = x := by simpa using hx
      simp
    | succ n =>
      rw [List.getElem?_cons_succ] at hx
      have hlt : y < x := hl.1 x (List.mem_of_getElem? hx)
      rw [List.takeWhile_cons_of_pos (by simpa using hlt), List.length_cons, ih hl.2 hx]

theorem length_filter_lt {l : List α} (hl : l.Pairwise (· < ·)) {n : Nat} {x : α}
    (hx : l[n]? = some x) : (l.filter (· < x)).length = n := by
  induction l generalizing n with
  | nil => simp at hx
  | cons y l ih =>
    rw [List.pairwise_cons] at hl
    cases n with
    | zero =>
      obtain rfl : y = x := by simpa using hx
      rw [List.length_eq_zero_iff, List.filter_eq_nil_iff]
      intro z hz
      rcases List.mem_cons.mp hz with rfl | hz
      · simp
      · simpa using (hl.1 z hz).le
    | succ n =>
      rw [List.getElem?_cons_succ] at hx
      have hlt : y < x := hl.1 x (List.mem_of_getElem? hx)
      rw [List.filter_cons_of_pos (by simpa using hlt), List.length_cons, ih hl.2 hx]

/-- An insertion behind the first `n` elements has the last elements of the insertion. -/
theorem tail_insert_drop {x : α} {l : List α} {n : Nat} (hl : l.Pairwise (· < ·)) (hx : x ∉ l)
    (h : n ≤ l.length) : (insert x (l.drop n)).tail = (insert x l).drop (n + 1) := by
  induction l generalizing n with
  | nil =>
    obtain rfl : n = 0 := by simpa using h
    simp
  | cons y l ih =>
    cases n with
    | zero => simp
    | succ n =>
      rw [List.pairwise_cons] at hl
      rw [List.mem_cons, not_or] at hx
      rw [List.drop_succ_cons, insert_cons]
      split
      next hle =>
        have hbelow : ∀ z ∈ l.drop n, x < z := fun z hz =>
          lt_of_le_of_lt hle (hl.1 z (List.mem_of_mem_drop hz))
        have hinsert : insert x ([] ++ l.drop n) = insert x [] ++ l.drop n :=
          insert_append_of_below hbelow
        rw [List.nil_append, insert_nil] at hinsert
        rw [hinsert]
        simp
      · rw [ih hl.2 hx.2 (by simpa using h), List.drop_succ_cons]

/-- The elements of a list, each one once, in ascending order. -/
def collect (xs : List α) : List α :=
  xs.foldl (fun l x => if x ∈ l then l else insert x l) []

@[simp] theorem collect_nil : collect ([] : List α) = [] := rfl

theorem collect_concat (xs : List α) (x : α) :
    collect (xs ++ [x]) = if x ∈ collect xs then collect xs else insert x (collect xs) := by
  rw [collect, List.foldl_append]
  rfl

@[simp] theorem mem_collect {xs : List α} {x : α} : x ∈ collect xs ↔ x ∈ xs := by
  induction xs using List.reverseRecOn with
  | nil => simp
  | append_singleton xs y ih =>
    rw [collect_concat]
    split
    next hy =>
      rw [ih, List.mem_append, List.mem_singleton]
      exact ⟨.inl, fun h => h.elim id fun heq => ih.mp (heq ▸ hy)⟩
    · rw [mem_insert, ih, List.mem_append, List.mem_singleton, or_comm]

theorem collect_concat_of_mem {xs : List α} {x : α} (h : x ∈ xs) :
    collect (xs ++ [x]) = collect xs := by
  rw [collect_concat, if_pos (mem_collect.mpr h)]

theorem collect_concat_of_not_mem {xs : List α} {x : α} (h : x ∉ xs) :
    collect (xs ++ [x]) = insert x (collect xs) := by
  rw [collect_concat, if_neg (mt mem_collect.mp h)]

theorem collect_ascending (xs : List α) : (collect xs).Pairwise (· < ·) := by
  induction xs using List.reverseRecOn with
  | nil => simp
  | append_singleton xs x ih =>
    rw [collect_concat]
    split
    · exact ih
    next hx => exact insert_ascending ih hx

/-- An ascending list with the elements of `xs` is their collection. -/
theorem collect_eq {xs l : List α} (hl : l.Pairwise (· < ·)) (h : ∀ x, x ∈ xs ↔ x ∈ l) :
    collect xs = l :=
  (collect_ascending xs).eq_of_mem_iff hl fun {x} => by rw [mem_collect, h]

theorem collect_length (xs : List α) : (collect xs).length = xs.toFinset.card := by
  have hset : xs.toFinset = (collect xs).toFinset := by
    ext x
    simp
  have hnodup : (collect xs).Nodup := (collect_ascending xs).imp fun h => h.ne
  rw [hset, List.toFinset_card_of_nodup hnodup]

theorem collect_filter_length (xs : List α) (x : α) :
    ((collect xs).filter (· < x)).length = (xs.toFinset.filter (· < x)).card := by
  have hset : xs.toFinset.filter (· < x) = ((collect xs).filter (· < x)).toFinset := by
    ext y
    simp
  have hnodup : ((collect xs).filter (· < x)).Nodup :=
    ((collect_ascending xs).imp fun h => h.ne).filter _
  rw [hset, List.toFinset_card_of_nodup hnodup]

end Sorted
