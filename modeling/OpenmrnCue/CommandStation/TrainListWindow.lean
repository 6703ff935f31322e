import OpenmrnCue.CommandStation.TrainListPaging

/-! The page that one `scroll_to` displays, for any content of the list: the nodes around the
target, the flags, the offset of the first line and the node of each line. -/

namespace OpenmrnCue.CommandStation.TrainNodeInfoCache

variable {cache : TrainNodeInfoCache} {nodes : List Nat} {target before after it : Nat}

/-! ## The flags -/

theorem lookTowardsTop_flags (endFirst : Nat) (cache : TrainNodeInfoCache) (it : Nat) :
    ((cache.lookTowardsTop endFirst it).clipped = true ↔
      it < cache.resultsBeforeTarget ∧ cache.trainNodes.resultsClippedAtTop ≠ 0) ∧
    ((cache.lookTowardsTop endFirst it).needRefillCache = true ↔
      it < cache.resultsBeforeTarget + cache.scrollPrefetchSize ∧
        cache.trainNodes.resultsClippedAtTop ≠ 0) := by
  unfold lookTowardsTop
  simp only [tryMoveIterator_neg]
  by_cases hfound : cache.resultsBeforeTarget ≤ it
  · rw [if_neg (by simpa using hfound)]
    by_cases hprefetched : cache.scrollPrefetchSize ≤ it - cache.resultsBeforeTarget
    · rw [if_pos (by simpa using hprefetched)]
      constructor
      · simpa using fun h : it < _ => absurd hfound (Nat.not_le.mpr h)
      · simpa using fun h : it < _ => absurd h (by omega)
    · rw [if_neg (by simpa using hprefetched)]
      constructor
      · simpa using fun h : it < _ => absurd hfound (Nat.not_le.mpr h)
      · simpa using fun _ : cache.trainNodes.resultsClippedAtTop ≠ 0 => (by omega : it < _)
  · rw [if_pos (by simpa using hfound)]
    constructor
    · simpa using fun _ : cache.trainNodes.resultsClippedAtTop ≠ 0 => (by omega : it < _)
    · simpa using fun _ : cache.trainNodes.resultsClippedAtTop ≠ 0 => (by omega : it < _)

theorem lookTowardsBottom_flags (endFirst : Nat) (cache : TrainNodeInfoCache)
    (hit : it ≤ cache.trainNodes.nodes.length) :
    ((cache.lookTowardsBottom endFirst it).clipped = true ↔
      cache.trainNodes.nodes.length < it + (cache.resultsAfterTarget + 1) ∧
        cache.trainNodes.resultsClippedAtBottom ≠ 0) ∧
    ((cache.lookTowardsBottom endFirst it).needRefillCache = true ↔
      cache.trainNodes.nodes.length <
          it + (cache.resultsAfterTarget + 1) + cache.scrollPrefetchSize ∧
        cache.trainNodes.resultsClippedAtBottom ≠ 0) := by
  unfold lookTowardsBottom
  simp only [tryMoveIterator_ofNat _ hit,
    tryMoveIterator_ofNat _ (Nat.min_le_right (it + (cache.resultsAfterTarget + 1)) _)]
  generalize cache.trainNodes.nodes.length = size at *
  by_cases hfound : it + (cache.resultsAfterTarget + 1) ≤ size
  · rw [if_neg (by simpa using hfound), Nat.min_eq_left hfound]
    by_cases hprefetched : it + (cache.resultsAfterTarget + 1) + cache.scrollPrefetchSize ≤ size
    · rw [if_pos (by simpa using hprefetched)]
      constructor
      · simpa using fun h : size < _ => absurd hfound (Nat.not_le.mpr h)
      · simpa using fun h : size < _ => absurd hprefetched (Nat.not_le.mpr h)
    · rw [if_neg (by simpa using hprefetched)]
      constructor
      · simpa using fun h : size < _ => absurd hfound (Nat.not_le.mpr h)
      · simpa using fun _ : cache.trainNodes.resultsClippedAtBottom ≠ 0 => (by omega : size < _)
  · rw [if_pos (by simpa using hfound)]
    constructor
    · simpa using fun _ : cache.trainNodes.resultsClippedAtBottom ≠ 0 => (by omega : size < _)
    · simpa using fun _ : cache.trainNodes.resultsClippedAtBottom ≠ 0 => (by omega : size < _)

/-- The node at the lower bound of a target is the target, if that is in the list at all. -/
theorem getElem?_lowerBound (hnodes : nodes.Pairwise (· < ·)) :
    nodes[lowerBound nodes target]? = some target ↔ target ∈ nodes := by
  constructor
  · exact List.mem_of_getElem?
  · intro hmem
    obtain ⟨index, hindex⟩ := List.mem_iff_getElem?.mp hmem
    have hlength := Sorted.length_filter_lt hnodes hindex
    rw [lowerBound, List.countP_eq_length_filter, hlength, hindex]

/-! ## The page -/

theorem updateUiOutput_entries (endFirst : Nat) (cache : TrainNodeInfoCache) :
    (cache.updateUiOutput endFirst).entries =
      (cache.trainNodes.nodes.take (min cache.trainNodes.nodes.length
        (lowerBound cache.trainNodes.nodes cache.targetNodeId +
          cache.resultsAfterTarget + 1))).drop
        (lowerBound cache.trainNodes.nodes cache.targetNodeId - cache.resultsBeforeTarget) := by
  simp only [updateUiOutput, lookTowardsTop_page,
    lookTowardsBottom_page endFirst (lowerBound_le cache.trainNodes.nodes cache.targetNodeId)]
  rw [Nat.min_comm, Nat.add_assoc]

theorem updateUiOutput_topNodeId (endFirst : Nat) (cache : TrainNodeInfoCache) :
    (cache.updateUiOutput endFirst).topNodeId =
      cache.trainNodes.nodes[lowerBound cache.trainNodes.nodes cache.targetNodeId -
        cache.resultsBeforeTarget]?.getD 0 := by
  simp [updateUiOutput, findSelectionOffset, withOffset, lookTowardsTop_page]

theorem updateUiOutput_resultOffset (endFirst : Nat) (cache : TrainNodeInfoCache) :
    (cache.updateUiOutput endFirst).trainNodes.resultOffset =
      toInt16 (cache.trainNodes.resultsClippedAtTop + (cache.trainNodes.nodes.takeWhile
        (· < (cache.updateUiOutput endFirst).topNodeId)).length : Nat) := by
  rw [updateUiOutput_topNodeId]
  simp [updateUiOutput, findSelectionOffset, withOffset, selectionOffset, lookTowardsTop_page]

theorem updateUiOutput_nodes (endFirst : Nat) (cache : TrainNodeInfoCache) :
    (cache.updateUiOutput endFirst).trainNodes.nodes = cache.trainNodes.nodes := rfl

/-- A search that `scroll_to` starts leaves the display alone. -/
theorem scrollTo_display (endFirst : Nat) (cache : TrainNodeInfoCache)
    (target before after : Nat) :
    (cache.scrollTo endFirst target before after).entries =
      ((cache.setTarget target before after).updateUiOutput endFirst).entries ∧
    (cache.scrollTo endFirst target before after).topNodeId =
      ((cache.setTarget target before after).updateUiOutput endFirst).topNodeId ∧
    (cache.scrollTo endFirst target before after).trainNodes.nodes = cache.trainNodes.nodes ∧
    (cache.scrollTo endFirst target before after).trainNodes.resultOffset =
      ((cache.setTarget target before after).updateUiOutput endFirst).trainNodes.resultOffset := by
  unfold scrollTo
  dsimp only
  split
  · exact ⟨rfl, rfl, rfl, rfl⟩
  · exact ⟨rfl, rfl, rfl, rfl⟩

theorem toInt32_ofNat {x : Nat} (h : x < 2 ^ 31) : toInt32 x = x := by
  unfold toInt32
  rw [Nat.mod_eq_of_lt (by omega), if_pos h]

/-- Behind the last line `get_result_id` gives 0. -/
theorem getResultId_of_le {line : Nat} (endFirst : Nat) (h : cache.entries.length ≤ line) :
    cache.getResultId endFirst line = 0 := by
  unfold getResultId
  dsimp only
  split
  · rfl
  · rw [if_neg fun hline => absurd hline.1 (Nat.not_lt.mpr h)]

/-- The node of each line, by `get_result_id`, of a page that starts at `first`. -/
theorem getResultId_eq {first last : Nat} (endFirst : Nat) (hnodes : nodes.Pairwise (· < ·))
    (hlist : cache.trainNodes.nodes = nodes)
    (hentries : cache.entries = (nodes.take last).drop first)
    (htop : cache.topNodeId = nodes[first]?.getD 0) (hsize : cache.entries.length < 2 ^ 31)
    (line : Nat) : cache.getResultId endFirst line = cache.entries[line]?.getD 0 := by
  by_cases hline : line < cache.entries.length
  · have hlength : cache.entries.length = min last nodes.length - first := by
      rw [hentries, List.length_drop, List.length_take]
    obtain ⟨top, hfirst⟩ : ∃ top, nodes[first]? = some top :=
      ⟨_, List.getElem?_eq_getElem (by omega)⟩
    obtain ⟨node, hnode⟩ : ∃ node, nodes[first + line]? = some node :=
      ⟨_, List.getElem?_eq_getElem (by omega)⟩
    have hstart : lowerBound nodes cache.topNodeId = first := by
      rw [htop, hfirst, Option.getD_some, lowerBound, List.countP_eq_length_filter]
      exact Sorted.length_filter_lt hnodes hfirst
    have hentry : cache.entries[line]? = some node := by
      rw [hentries, List.getElem?_drop, List.getElem?_take, if_pos (by omega), hnode]
    have hmove : tryMoveIterator nodes.length (toInt32 line) first = (true, first + line) := by
      rw [toInt32_ofNat (by omega), tryMoveIterator_ofNat _ (by omega), Nat.min_eq_left (by omega)]
      simp only [Prod.mk.injEq, and_true, decide_eq_true_eq]
      omega
    unfold getResultId
    simp only [hlist, hstart, hmove, hentry, hnode, hline, nodeAt]
    simp
  · rw [getResultId_of_le endFirst (Nat.not_lt.mp hline),
      List.getElem?_eq_none (Nat.not_lt.mp hline), Option.getD_none]

/-! ## The window -/

/-- What `scroll_to` displays and returns: the nodes from `before` ones before the target to `after`
ones behind it, as far as they are in the list; which of them are missing for being clipped; and for
each line its node, whose offset counts the nodes clipped at the top. -/
structure ShowsWindow (endFirst : Nat) (cache : TrainNodeInfoCache) (target before after : Nat) :
    Prop where
  entries : (cache.scrollTo endFirst target before after).entries =
    (cache.trainNodes.nodes.take (min cache.trainNodes.nodes.length
      (cache.trainNodes.nodes.countP (· < target) + after + 1))).drop
      (cache.trainNodes.nodes.countP (· < target) - before)
  targetNotFound : (cache.scrollFlags endFirst target before after).targetNotFound = true ↔
    target ∉ cache.trainNodes.nodes
  clippedAtTop : (cache.scrollFlags endFirst target before after).clippedAtTop = true ↔
    cache.trainNodes.nodes.countP (· < target) < before ∧
      cache.trainNodes.resultsClippedAtTop ≠ 0
  clippedAtBottom : (cache.scrollFlags endFirst target before after).clippedAtBottom = true ↔
    cache.trainNodes.nodes.length < cache.trainNodes.nodes.countP (· < target) + after + 1 ∧
      cache.trainNodes.resultsClippedAtBottom ≠ 0
  needRefillCache : (cache.scrollFlags endFirst target before after).needRefillCache = true ↔
    ((cache.trainNodes.nodes.countP (· < target) : Int) - before < cache.scrollPrefetchSize ∧
      cache.trainNodes.resultsClippedAtTop ≠ 0) ∨
    ((cache.trainNodes.nodes.length : Int) -
        (cache.trainNodes.nodes.countP (· < target) + after + 1) < cache.scrollPrefetchSize ∧
      cache.trainNodes.resultsClippedAtBottom ≠ 0)
  offset : (cache.scrollTo endFirst target before after).entries ≠ [] →
    (cache.scrollTo endFirst target before after).firstResultOffset =
      cache.trainNodes.resultsClippedAtTop +
        (cache.trainNodes.nodes.countP (· < target) - before)
  resultId : ∀ line, (cache.scrollTo endFirst target before after).getResultId endFirst line =
    (cache.scrollTo endFirst target before after).entries[line]?.getD 0

/-- The offset survives its conversion to an `int16_t` and back to an `unsigned`. -/
def OffsetKept (offset : Nat) : Prop :=
  offset < 2 ^ 15 ∨ (2 ^ 32 - 2 ^ 15 ≤ offset ∧ offset < 2 ^ 32)

theorem offsetKept_iff (offset : Nat) :
    (toInt16 offset % 2 ^ 32).toNat = offset ↔ OffsetKept offset := by
  rw [toInt16, OffsetKept]
  omega

section window

variable (endFirst : Nat) (cache : TrainNodeInfoCache) (target : Nat)

theorem scrollTo_entries (hbefore : before ≤ 15) (hafter : after ≤ 15) :
    (cache.scrollTo endFirst target before after).entries =
      (cache.trainNodes.nodes.take (min cache.trainNodes.nodes.length
        (cache.trainNodes.nodes.countP (· < target) + after + 1))).drop
        (cache.trainNodes.nodes.countP (· < target) - before) := by
  rw [(scrollTo_display endFirst cache target before after).1, updateUiOutput_entries]
  simp only [setTarget_targetNodeId, setTarget_resultsBeforeTarget, setTarget_resultsAfterTarget,
    Nat.mod_eq_of_lt (show before < 2 ^ 4 by omega), Nat.mod_eq_of_lt (show after < 2 ^ 4 by omega)]
  rfl

/-- The offset of the first line, as it is stored. -/
theorem scrollTo_offset (hnodes : cache.trainNodes.nodes.Pairwise (· < ·)) (hbefore : before ≤ 15)
    (hshown : cache.trainNodes.nodes.countP (· < target) - before <
      cache.trainNodes.nodes.length) :
    (cache.scrollTo endFirst target before after).trainNodes.resultOffset =
      toInt16 (cache.trainNodes.resultsClippedAtTop +
        (cache.trainNodes.nodes.countP (· < target) - before) : Nat) := by
  have hfirst := List.getElem?_eq_getElem hshown
  rw [(scrollTo_display endFirst cache target before after).2.2.2, updateUiOutput_resultOffset,
    updateUiOutput_topNodeId, setTarget_targetNodeId, setTarget_resultsBeforeTarget,
    Nat.mod_eq_of_lt (show before < 2 ^ 4 by omega)]
  change toInt16 ((cache.trainNodes.resultsClippedAtTop + (cache.trainNodes.nodes.takeWhile
    (· < cache.trainNodes.nodes[cache.trainNodes.nodes.countP (· < target) -
      before]?.getD 0)).length : Nat)) = _
  rw [hfirst, Option.getD_some, Sorted.length_takeWhile_lt hnodes hfirst]

theorem scrollTo_resultId (hnodes : cache.trainNodes.nodes.Pairwise (· < ·)) (hbefore : before ≤ 15)
    (hafter : after ≤ 15) (line : Nat) :
    (cache.scrollTo endFirst target before after).getResultId endFirst line =
      (cache.scrollTo endFirst target before after).entries[line]?.getD 0 := by
  have hentries := scrollTo_entries endFirst cache target hbefore hafter
  obtain ⟨-, htop, hlist, -⟩ := scrollTo_display endFirst cache target before after
  refine getResultId_eq endFirst hnodes hlist hentries ?_ ?_ line
  · rw [htop, updateUiOutput_topNodeId, setTarget_targetNodeId, setTarget_resultsBeforeTarget,
      Nat.mod_eq_of_lt (show before < 2 ^ 4 by omega)]
    rfl
  · rw [hentries, List.length_drop, List.length_take]
    omega

theorem scrollFlags_eq (hbefore : before ≤ 15) (hafter : after ≤ 15) :
    ((cache.scrollFlags endFirst target before after).clippedAtTop = true ↔
      cache.trainNodes.nodes.countP (· < target) < before ∧
        cache.trainNodes.resultsClippedAtTop ≠ 0) ∧
    ((cache.scrollFlags endFirst target before after).clippedAtBottom = true ↔
      cache.trainNodes.nodes.length < cache.trainNodes.nodes.countP (· < target) + after + 1 ∧
        cache.trainNodes.resultsClippedAtBottom ≠ 0) ∧
    ((cache.scrollFlags endFirst target before after).needRefillCache = true ↔
      (cache.trainNodes.nodes.countP (· < target) < before + cache.scrollPrefetchSize ∧
        cache.trainNodes.resultsClippedAtTop ≠ 0) ∨
      (cache.trainNodes.nodes.length <
          cache.trainNodes.nodes.countP (· < target) + (after + 1) + cache.scrollPrefetchSize ∧
        cache.trainNodes.resultsClippedAtBottom ≠ 0)) := by
  have htop := lookTowardsTop_flags endFirst (cache.setTarget target before after)
    (lowerBound cache.trainNodes.nodes target)
  have hbottom := lookTowardsBottom_flags endFirst (cache.setTarget target before after)
    (lowerBound_le cache.trainNodes.nodes target)
  rw [setTarget_resultsBeforeTarget, Nat.mod_eq_of_lt (show before < 2 ^ 4 by omega)] at htop
  rw [setTarget_resultsAfterTarget, Nat.mod_eq_of_lt (show after < 2 ^ 4 by omega)] at hbottom
  refine ⟨htop.1, hbottom.1, ?_⟩
  exact Bool.or_eq_true_iff.trans (or_congr htop.2 hbottom.2)

/-- A `scroll_to` displays the window around its target, if and only if the offset of a first line
that there is survives the `int16_t`. -/
theorem scrollTo_shows_window_iff (hnodes : cache.trainNodes.nodes.Pairwise (· < ·))
    (hbefore : before ≤ 15) (hafter : after ≤ 15) :
    ShowsWindow endFirst cache target before after ↔
      (cache.trainNodes.nodes.countP (· < target) - before < cache.trainNodes.nodes.length →
        OffsetKept (cache.trainNodes.resultsClippedAtTop +
          (cache.trainNodes.nodes.countP (· < target) - before))) := by
  have hentries := scrollTo_entries endFirst cache target hbefore hafter
  have hshown : (cache.scrollTo endFirst target before after).entries ≠ [] ↔
      cache.trainNodes.nodes.countP (· < target) - before < cache.trainNodes.nodes.length := by
    rw [← List.length_pos_iff, hentries, List.length_drop, List.length_take]
    omega
  constructor
  · intro h hlt
    rw [← offsetKept_iff, ← scrollTo_offset endFirst cache target hnodes hbefore hlt]
    exact h.offset (hshown.mpr hlt)
  · intro hkept
    obtain ⟨htop, hbottom, hrefill⟩ :=
      scrollFlags_eq endFirst cache target hbefore hafter
    refine ⟨hentries, ?_, htop, hbottom, ?_, ?_, scrollTo_resultId endFirst cache target
      hnodes hbefore hafter⟩
    · change (_ != _) = true ↔ _
      rw [bne_iff_ne]
      exact not_congr (getElem?_lowerBound hnodes)
    · rw [hrefill]
      omega
    · intro hne
      have hlt := hshown.mp hne
      rw [firstResultOffset, scrollTo_offset endFirst cache target hnodes hbefore hlt, offsetKept_iff]
      exact hkept hlt

end window

/-- A cache of one node with nodes clipped at the top. -/
def clippedCache (clipped : Nat) : TrainNodeInfoCache :=
  let cache := resetSearch ⟨3, 48, 16, false⟩
  { cache with
    trainNodes := { cache.trainNodes with nodes := [7], resultsClippedAtTop := clipped } }

theorem fewClipped_shows_window : ShowsWindow 0 (clippedCache 5) 7 1 1 :=
  (scrollTo_shows_window_iff 0 (clippedCache 5) 7 (by decide) (by decide) (by decide)).mpr
    fun _ => .inl (by decide)

/-- With 32768 nodes clipped at the top the offset is not theirs. -/
theorem manyClipped_wrong_offset : ¬ ShowsWindow 0 (clippedCache 32768) 7 1 1 := by
  intro h
  have hoffset := h.offset (by
    rw [scrollTo_entries 0 _ 7 (by decide) (by decide)]
    decide)
  rw [firstResultOffset, scrollTo_offset 0 _ 7 (by decide) (by decide) (by decide),
    offsetKept_iff, OffsetKept] at hoffset
  revert hoffset
  decide

end OpenmrnCue.CommandStation.TrainNodeInfoCache
