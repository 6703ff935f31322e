import Mathlib.Data.List.Induction
import Mathlib.Data.List.Nodup
import Mathlib.Data.List.Perm.Basic

/-! A table that is brought into agreement with a list of wanted items, in two passes.  The first
pass deletes what nobody wants and fills each gap with the last element.  The second pass looks for
each wanted item in turn: what is there is marked, what is missing is made and put behind the rest,
if it can be made. -/

namespace Reconcile

variable {α β κ : Type*}

/-- The first pass from some position on; `n` bounds the number of rounds that it still takes. -/
def sweep (keep : α → Bool) : Nat → List α → List α
  | 0, _ => []
  | _ + 1, [] => []
  | n + 1, x :: rest =>
    if keep x then x :: sweep keep n rest
    else
      match rest.getLast? with
      | none => []
      | some last => sweep keep n (last :: rest.dropLast)

/-- The first pass: each round either goes on to the next element or deletes one. -/
def prune (keep : α → Bool) (table : List α) : List α := sweep keep table.length table

section Prune

variable {keep : α → Bool} {n : Nat} {table front back : List α}

theorem sweep_perm (h : table.length ≤ n) : (sweep keep n table).Perm (table.filter keep) := by
  induction n generalizing table with
  | zero => rw [List.eq_nil_of_length_eq_zero (Nat.le_zero.mp h)]; rfl
  | succ n ih =>
    cases table with
    | nil => rfl
    | cons x rest =>
      rw [List.length_cons] at h
      unfold sweep
      split
      · next hx =>
        rw [List.filter_cons_of_pos hx]
        exact (ih (by omega)).cons x
      · next hx =>
        rw [List.filter_cons_of_neg hx]
        rcases List.eq_nil_or_concat rest with rfl | ⟨before, last, rfl⟩
        · rfl
        · rw [List.concat_eq_append] at h ⊢
          rw [List.length_append, List.length_singleton] at h
          simp only [List.getLast?_append, List.getLast?_singleton, Option.some_or,
            List.dropLast_concat]
          refine (ih (by rw [List.length_cons]; omega)).trans ?_
          exact (List.perm_append_singleton last before).symm.filter keep

/-- What is left is what is kept, in some order. -/
theorem prune_perm : (prune keep table).Perm (table.filter keep) := sweep_perm (Nat.le_refl _)

theorem mem_prune {x : α} : x ∈ prune keep table ↔ x ∈ table ∧ keep x := by
  rw [prune_perm.mem_iff, List.mem_filter]

theorem sweep_append (hfront : ∀ x ∈ front, keep x) (hback : ∀ x ∈ back, keep x = false)
    (h : (front ++ back).length ≤ n) : sweep keep n (front ++ back) = front := by
  induction front generalizing n with
  | nil =>
    have hperm : (sweep keep n back).Perm (back.filter keep) := sweep_perm h
    rw [List.filter_eq_nil_iff.mpr fun x hx => by simp [hback x hx]] at hperm
    exact hperm.eq_nil
  | cons x front ih =>
    cases n with
    | zero => simp at h
    | succ n =>
      rw [List.cons_append] at h ⊢
      rw [sweep, if_pos (hfront x List.mem_cons_self)]
      congr 1
      exact ih (fun y hy => hfront y (List.mem_cons_of_mem x hy)) (by simpa using h)

/-- If the deleted elements are the last ones, the others stay in their places. -/
theorem prune_append (hfront : ∀ x ∈ front, keep x) (hback : ∀ x ∈ back, keep x = false) :
    prune keep (front ++ back) = front :=
  sweep_append hfront hback (Nat.le_refl _)

end Prune

section Supply

variable (found : β → α → Bool) (touch : β → α → α) (make : β → Option α)

/-- The second pass for one item. -/
def supplyOne (table : List α) (item : β) : List α :=
  match table.findIdx? (found item) with
  | some i => table.modify i (touch item)
  | none => table ++ (make item).toList

/-- The second pass. -/
def supply (table : List α) (wanted : List β) : List α :=
  wanted.foldl (supplyOne found touch make) table

variable {found touch make} {key : α → κ} {want : β → κ} {table : List α} {wanted : List β}
  {item : β}

/-- Elements are found by their keys, and marking keeps the key. -/
structure Keyed (found : β → α → Bool) (touch : β → α → α) (key : α → κ) (want : β → κ) : Prop where
  found_iff : ∀ item x, found item x = true ↔ key x = want item
  key_touch : ∀ item x, key (touch item x) = key x

/-- What one item does: it marks the first element with its key, or it is made if it can be. -/
theorem supplyOne_cases (hkeyed : Keyed found touch key want) (make : β → Option α)
    (table : List α) (item : β) :
    (∃ before x after, table = before ++ x :: after ∧ key x = want item ∧
      (∀ y ∈ before, key y ≠ want item) ∧
      supplyOne found touch make table item = before ++ touch item x :: after) ∨
    want item ∉ table.map key ∧
      supplyOne found touch make table item = table ++ (make item).toList := by
  unfold supplyOne
  cases hfind : table.findIdx? (found item) with
  | none =>
    refine .inr ⟨fun hmem => ?_, rfl⟩
    obtain ⟨x, hx, hkey⟩ := List.mem_map.mp hmem
    have hnot := List.findIdx?_eq_none_iff.mp hfind x hx
    rw [(hkeyed.found_iff item x).mpr hkey] at hnot
    cases hnot
  | some i =>
    obtain ⟨hi, hfound, hbefore⟩ := List.findIdx?_eq_some_iff_getElem.mp hfind
    refine .inl ⟨table.take i, table[i], table.drop (i + 1), ?_, ?_, ?_, ?_⟩
    · rw [List.getElem_cons_drop, List.take_append_drop]
    · exact (hkeyed.found_iff item _).mp hfound
    · intro y hy
      obtain ⟨j, hj, rfl⟩ := List.mem_take_iff_getElem.mp hy
      have hnot := hbefore j (by omega)
      exact fun hkey => hnot ((hkeyed.found_iff item _).mpr hkey)
    · exact List.modify_eq_take_cons_drop hi

/-- The keys after one item. -/
theorem map_key_supplyOne (hkeyed : Keyed found touch key want)
    (hmake : ∀ x, make item = some x → key x = want item) [DecidableEq κ] :
    (supplyOne found touch make table item).map key =
      if want item ∈ table.map key ∨ make item = none then table.map key
      else table.map key ++ [want item] := by
  rcases supplyOne_cases hkeyed make table item with
    ⟨before, x, after, rfl, hkey, _, heq⟩ | ⟨hnot, heq⟩
  · rw [heq, if_pos (.inl (by simp [hkey]))]
    simp [hkeyed.key_touch]
  · rw [heq]
    cases hitem : make item with
    | none => simp
    | some x => simp [hnot, hmake x hitem]

/-- The keys after the pass are those from before and those of the items that can be made. -/
theorem mem_map_key_supply (hkeyed : Keyed found touch key want)
    (hmake : ∀ item ∈ wanted, ∀ x, make item = some x → key x = want item) {k : κ} :
    k ∈ (supply found touch make table wanted).map key ↔
      k ∈ table.map key ∨ ∃ item ∈ wanted, (make item).isSome ∧ want item = k := by
  classical
  induction wanted generalizing table with
  | nil => simp [supply]
  | cons item wanted ih =>
    rw [supply, List.foldl_cons, ← supply, ih fun i hi => hmake i (List.mem_cons_of_mem item hi),
      List.exists_mem_cons_iff,
      map_key_supplyOne hkeyed (hmake item List.mem_cons_self)]
    cases hitem : make item with
    | none => simp
    | some x =>
      by_cases hmem : want item ∈ table.map key
      · simp only [hmem, true_or, if_true, Option.isSome_some, true_and]
        refine ⟨fun h => h.imp_right .inr, ?_⟩
        rintro (h | rfl | h)
        · exact .inl h
        · exact .inl hmem
        · exact .inr h
      · simp only [hmem, false_or, reduceCtorEq, if_false, List.mem_append, List.mem_singleton,
          Option.isSome_some, true_and, or_assoc, eq_comm]

/-- The pass makes no key a second time. -/
theorem nodup_map_key_supply (hkeyed : Keyed found touch key want)
    (hmake : ∀ item ∈ wanted, ∀ x, make item = some x → key x = want item)
    (hnodup : (table.map key).Nodup) : ((supply found touch make table wanted).map key).Nodup := by
  classical
  induction wanted generalizing table with
  | nil => exact hnodup
  | cons item wanted ih =>
    rw [supply, List.foldl_cons, ← supply]
    refine ih (fun i hi => hmake i (List.mem_cons_of_mem item hi)) ?_
    rw [map_key_supplyOne hkeyed (hmake item List.mem_cons_self)]
    split
    · exact hnodup
    · next h =>
      rw [not_or] at h
      refine List.Nodup.append hnodup (List.nodup_singleton _) ?_
      rw [List.disjoint_singleton]
      exact h.1

/-- Items that are all there change no key. -/
theorem map_key_supply_of_present (hkeyed : Keyed found touch key want)
    (h : ∀ item ∈ wanted, want item ∈ table.map key) :
    (supply found touch make table wanted).map key = table.map key := by
  induction wanted generalizing table with
  | nil => rfl
  | cons item wanted ih =>
    have hone : (supplyOne found touch make table item).map key = table.map key := by
      rcases supplyOne_cases hkeyed make table item with
        ⟨before, x, after, rfl, _, _, heq⟩ | ⟨hnot, _⟩
      · rw [heq]
        simp [hkeyed.key_touch]
      · exact absurd (h item List.mem_cons_self) hnot
    rw [supply, List.foldl_cons, ← supply]
    refine (ih fun i hi => ?_).trans hone
    rw [hone]
    exact h i (List.mem_cons_of_mem item hi)

/-- Items that are new and different from each other are put behind the rest in their order, if all
of them can be made. -/
theorem map_key_supply_of_new (hkeyed : Keyed found touch key want)
    (hmake : ∀ item ∈ wanted, ∃ x, make item = some x ∧ key x = want item)
    (hnew : ∀ item ∈ wanted, want item ∉ table.map key) (hnodup : (wanted.map want).Nodup) :
    (supply found touch make table wanted).map key = table.map key ++ wanted.map want := by
  induction wanted generalizing table with
  | nil => simp [supply]
  | cons item wanted ih =>
    obtain ⟨x, hx, hkey⟩ := hmake item List.mem_cons_self
    rw [List.map_cons, List.nodup_cons] at hnodup
    have hone : (supplyOne found touch make table item).map key = table.map key ++ [want item] := by
      rcases supplyOne_cases hkeyed make table item with
        ⟨before, y, after, rfl, hy, _, _⟩ | ⟨_, heq⟩
      · exact absurd (by simp [hy]) (hnew item List.mem_cons_self)
      · rw [heq, hx]
        simp [hkey]
    rw [supply, List.foldl_cons, ← supply,
      ih (fun i hi => hmake i (List.mem_cons_of_mem item hi)) ?_ hnodup.2, hone]
    · simp
    · intro i hi hmem
      rw [hone, List.mem_append, List.mem_singleton] at hmem
      rcases hmem with hmem | hmem
      · exact hnew i (List.mem_cons_of_mem item hi) hmem
      · exact hnodup.1 (hmem ▸ List.mem_map_of_mem hi)

theorem supply_append (first second : List β) :
    supply found touch make table (first ++ second) =
      supply found touch make (supply found touch make table first) second :=
  List.foldl_append

/-- With different keys, an element that some item wants has been marked or made by an item that
wants it. -/
theorem exists_stamp (hkeyed : Keyed found touch key want)
    (hmake : ∀ item ∈ wanted, ∀ x, make item = some x → key x = want item)
    (hnodup : (table.map key).Nodup) (stamped : β → α → Prop)
    (htouch : ∀ item x, stamped item (touch item x))
    (hmade : ∀ item x, make item = some x → stamped item x) :
    ∀ x ∈ supply found touch make table wanted, (∃ item ∈ wanted, want item = key x) →
      ∃ item ∈ wanted, want item = key x ∧ stamped item x := by
  induction wanted using List.reverseRecOn with
  | nil => simp
  | append_singleton wanted item ih =>
    have hmake' := fun i hi => hmake i (List.mem_append_left [item] hi)
    have hpast := nodup_map_key_supply hkeyed hmake' hnodup
    rw [supply, List.foldl_append, List.foldl_cons, List.foldl_nil, ← supply]
    intro x hx hwanted
    have hearlier (hx : x ∈ supply found touch make table wanted) (hne : want item ≠ key x) :
        ∃ i ∈ wanted ++ [item], want i = key x ∧ stamped i x := by
      obtain ⟨i, hi, hwant⟩ := hwanted
      rcases List.mem_append.mp hi with hi | hi
      · obtain ⟨j, hj, hstamp⟩ := ih hmake' x hx ⟨i, hi, hwant⟩
        exact ⟨j, List.mem_append_left [item] hj, hstamp⟩
      · rw [List.mem_singleton.mp hi] at hwant
        exact absurd hwant hne
    have hlast : item ∈ wanted ++ [item] := List.mem_append_right wanted List.mem_cons_self
    rcases supplyOne_cases hkeyed make (supply found touch make table wanted) item with
      ⟨before, y, after, hsplit, hkey, _, heq⟩ | ⟨hnot, heq⟩
    · rw [heq] at hx
      rw [hsplit, List.map_append, List.map_cons, List.nodup_append, List.nodup_cons] at hpast
      obtain ⟨_, ⟨hafter, _⟩, hbefore⟩ := hpast
      rcases List.mem_append.mp hx with hx | hx
      · refine hearlier (by rw [hsplit]; exact List.mem_append_left _ hx) fun h => ?_
        exact hbefore _ (List.mem_map_of_mem hx) _ List.mem_cons_self (h ▸ hkey ▸ rfl)
      · rcases List.mem_cons.mp hx with rfl | hx
        · exact ⟨item, hlast, by rw [hkeyed.key_touch, hkey], htouch item y⟩
        · refine hearlier (by rw [hsplit]; simp [hx]) fun h => hafter ?_
          rw [hkey, h]
          exact List.mem_map_of_mem hx
    · rw [heq] at hx
      rcases List.mem_append.mp hx with hx | hx
      · refine hearlier hx fun h => hnot ?_
        rw [h]
        exact List.mem_map_of_mem hx
      · have hx : make item = some x := by simpa using hx
        exact ⟨item, hlast, (hmake item hlast x hx).symm, hmade item x hx⟩

end Supply

end Reconcile
