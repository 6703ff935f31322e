import Mathlib.Logic.Function.Basic

/-! Tables of keys that are filled first fit.  A request for a key gets the first cell that holds
the key; if there is none, it gets the first vacant cell, into which the key is stored.  Storing may
change a key, so that a later request need not find it: it does as long as no key is changed. -/

namespace FirstFit

variable {ι κ : Type*} [DecidableEq κ]

/-- The first cell in the order of the search that holds `k`. -/
def first (order : List ι) (table : ι → κ) (k : κ) : Option ι := order.find? fun i => table i = k

/-- The cell that a request for `k` gets. -/
def cell (order : List ι) (vacant : κ) (table : ι → κ) (k : κ) : Option ι :=
  (first order table k).or (first order table vacant)

/-- The table after a request for `k`. -/
def request [DecidableEq ι] (order : List ι) (vacant : κ) (store : κ → κ) (table : ι → κ) (k : κ) :
    ι → κ :=
  match first order table k, first order table vacant with
  | none, some i => Function.update table i (store k)
  | _, _ => table

variable {order : List ι} {table table' : ι → κ} {vacant k k' : κ} {i : ι}

theorem first_holds (h : first order table k = some i) : table i = k := by
  simpa using List.find?_some h

theorem first_mem (h : first order table k = some i) : i ∈ order := List.mem_of_find?_eq_some h

theorem first_eq_none : first order table k = none ↔ ∀ i ∈ order, table i ≠ k := by
  simp [first, List.find?_eq_none]

theorem first_congr (h : ∀ i ∈ order, table i = k ↔ table' i = k) :
    first order table k = first order table' k := by
  induction order with
  | nil => rfl
  | cons i order ih =>
    have hrest := ih fun j hj => h j (List.mem_cons_of_mem i hj)
    have hi : decide (table i = k) = decide (table' i = k) := by
      rw [decide_eq_decide]
      exact h i List.mem_cons_self
    rw [first, first] at hrest ⊢
    rw [List.find?_cons, List.find?_cons, hi, hrest]

/-- A key that only one cell holds is found there. -/
theorem first_eq_of_unique (hmem : i ∈ order) (h : ∀ j ∈ order, table j = k ↔ j = i) :
    first order table k = some i := by
  cases hfirst : first order table k with
  | none => exact absurd ((h i hmem).mpr rfl) (first_eq_none.mp hfirst i hmem)
  | some j => rw [(h j (first_mem hfirst)).mp (first_holds hfirst)]

/-- A request gets the cell of its key, or the first vacant cell if its key has none. -/
theorem cell_cases (h : cell order vacant table k = some i) :
    first order table k = some i ∨
      first order table k = none ∧ first order table vacant = some i := by
  unfold cell at h
  cases hfirst : first order table k with
  | none =>
    rw [hfirst] at h
    exact .inr ⟨rfl, h⟩
  | some j =>
    rw [hfirst] at h
    exact .inl h

theorem cell_of_first (h : first order table k = some i) : cell order vacant table k = some i := by
  rw [cell, h, Option.some_or]

/-- A request fails only if no cell holds the key and none is vacant. -/
theorem cell_eq_none (h : cell order vacant table k = none) :
    (∀ i ∈ order, table i ≠ k) ∧ ∀ i ∈ order, table i ≠ vacant := by
  unfold cell at h
  rw [Option.or_eq_none_iff, first_eq_none, first_eq_none] at h
  exact h

/-- While a key stays where it was found, another key gets another cell. -/
theorem cell_ne (hk : k ≠ vacant) (hne : k' ≠ k) {j : ι} (hfirst : first order table k = some i)
    (hcell : cell order vacant table k' = some j) : j ≠ i := by
  rintro rfl
  have hholds : table j = k := first_holds hfirst
  rcases cell_cases hcell with hfirst' | ⟨_, hvacant⟩
  · exact hne ((first_holds hfirst').symm.trans hholds)
  · exact hk (hholds.symm.trans (first_holds hvacant))

section

variable [DecidableEq ι] {store : κ → κ}

theorem request_of_first (h : first order table k = some i) :
    request order vacant store table k = table := by
  simp [request, h]

theorem request_of_full (h : first order table vacant = none) :
    request order vacant store table k = table := by
  unfold request
  split
  case h_1 hvacant => rw [h] at hvacant; cases hvacant
  case h_2 => rfl

theorem request_of_vacant (hfirst : first order table k = none)
    (hvacant : first order table vacant = some i) :
    request order vacant store table k = Function.update table i (store k) := by
  simp [request, hfirst, hvacant]

/-- A request leaves the table alone or fills its first vacant cell. -/
theorem request_cases (order : List ι) (vacant : κ) (store : κ → κ) (table : ι → κ) (k : κ) :
    request order vacant store table k = table ∨ ∃ i, first order table vacant = some i ∧
      request order vacant store table k = Function.update table i (store k) := by
  cases hfirst : first order table k with
  | some j => exact .inl (request_of_first hfirst)
  | none =>
    cases hvacant : first order table vacant with
    | none => exact .inl (request_of_full hvacant)
    | some i => exact .inr ⟨i, rfl, request_of_vacant hfirst hvacant⟩

/-- A cell that is taken keeps its key. -/
theorem request_taken (h : table i ≠ vacant) :
    request order vacant store table k i = table i := by
  rcases request_cases order vacant store table k with heq | ⟨j, hvacant, heq⟩
  · rw [heq]
  · rw [heq]
    refine Function.update_of_ne ?_ _ _
    rintro rfl
    exact h (first_holds hvacant)

/-- The keys of the table are those that it had and the one that was stored. -/
theorem request_holds (i : ι) : request order vacant store table k i = table i ∨
    request order vacant store table k i = store k := by
  rcases request_cases order vacant store table k with heq | ⟨j, _, heq⟩
  · exact .inl (congrFun heq i)
  · rw [heq]
    by_cases hij : i = j
    · subst hij
      exact .inr (Function.update_self _ _ _)
    · exact .inl (Function.update_of_ne hij _ _)

/-- A key that is stored as it is will be found where the request put it. -/
theorem first_request_self (hstore : store k = k ∨ first order table vacant = none)
    (hcell : cell order vacant table k = some i) :
    first order (request order vacant store table k) k = some i := by
  rcases cell_cases hcell with hfirst | ⟨hnone, hvacant⟩
  · rwa [request_of_first hfirst]
  · have hstore : store k = k := hstore.resolve_right (by simp [hvacant])
    rw [request_of_vacant hnone hvacant, hstore]
    refine first_eq_of_unique (first_mem hvacant) fun j hj => ?_
    by_cases hij : j = i
    · subst hij
      simp
    · rw [Function.update_of_ne hij]
      exact iff_of_false (first_eq_none.mp hnone j hj) hij

/-- A key stays where it is found, whatever else is asked for, if keys are stored as they are. -/
theorem first_request (hk : k ≠ vacant) (hfirst : first order table k = some i)
    (hstore : store k' = k' ∨ first order table vacant = none) :
    first order (request order vacant store table k') k = some i := by
  by_cases heq : k' = k
  · subst heq
    rwa [request_of_first hfirst]
  rcases hstore with hstore | hfull
  · cases hfirst' : first order table k' with
    | some j => rwa [request_of_first hfirst']
    | none =>
      cases hvacant : first order table vacant with
      | none => rwa [request_of_full hvacant]
      | some j =>
        rw [request_of_vacant hfirst' hvacant, hstore, ← hfirst]
        refine first_congr fun l _ => ?_
        by_cases hlj : l = j
        · subst hlj
          rw [Function.update_self, first_holds hvacant]
          exact iff_of_false heq hk.symm
        · rw [Function.update_of_ne hlj]
  · rwa [request_of_full hfull]

end

end FirstFit
