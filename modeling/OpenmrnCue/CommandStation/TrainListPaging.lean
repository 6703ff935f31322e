import Mathlib.Data.Finset.Sort
import OpenmrnCue.Library.Trace
import OpenmrnCue.CommandStation.TrainListSearch

/-! Paging through a train list.  A search fills the list; scrolling displays a part of it, and it
starts another search when the display comes close to an end of the list behind which nodes were
clipped.  The number of results, the run of nodes in the list and the offset of the display stay
exact over all of this, as long as the offset fits its `int16_t` and no node is read past the end of
the list. -/

namespace OpenmrnCue.CommandStation

open TrainNodeInfoCache

theorem moveForward_eq {size it : Nat} (count : Nat) (h : it ≤ size) :
    moveForward size count it = (decide (it + count ≤ size), min (it + count) size) := by
  induction count generalizing it with
  | zero => simp [moveForward, h]
  | succ count ih =>
    rw [moveForward]
    split
    · simp_all
    · rw [ih (by omega), show it + 1 + count = it + (count + 1) by omega]

theorem moveBackward_eq (count it : Nat) :
    moveBackward count it = (decide (count ≤ it), it - count) := by
  induction count generalizing it with
  | zero => simp [moveBackward]
  | succ count ih =>
    cases it with
    | zero => simp [moveBackward]
    | succ it => simp [moveBackward, ih]

theorem tryMoveIterator_ofNat {size it : Nat} (count : Nat) (h : it ≤ size) :
    tryMoveIterator size (count : Nat) it = (decide (it + count ≤ size), min (it + count) size) :=
  moveForward_eq count h

theorem tryMoveIterator_neg {size it : Nat} (count : Nat) :
    tryMoveIterator size (-(count : Int)) it = (decide (count ≤ it), it - count) := by
  cases count with
  | zero => simp [tryMoveIterator, moveForward]
  | succ count => exact moveBackward_eq (count + 1) it

theorem lowerBound_le (nodes : List Nat) (target : Nat) : lowerBound nodes target ≤ nodes.length :=
  List.countP_le_length

section display

variable {cache : TrainNodeInfoCache} {endFirst it : Nat}

/-- Towards the top there are enough nodes, and the limit for a refill is the first of them, or a
refill is needed if nodes were clipped there. -/
theorem lookTowardsTop_cases (endFirst : Nat) (cache : TrainNodeInfoCache) (it : Nat) :
    (cache.resultsBeforeTarget + cache.scrollPrefetchSize ≤ it ∧
      cache.lookTowardsTop endFirst it =
        ⟨it - cache.resultsBeforeTarget, false, false, nodeAt endFirst cache.trainNodes.nodes
          (it - (cache.resultsBeforeTarget + cache.scrollPrefetchSize))⟩) ∨
    (it < cache.resultsBeforeTarget + cache.scrollPrefetchSize ∧ ∃ clipped,
      cache.lookTowardsTop endFirst it =
        ⟨it - cache.resultsBeforeTarget, clipped, cache.trainNodes.resultsClippedAtTop != 0,
          kMinNode⟩) := by
  unfold lookTowardsTop
  simp only [tryMoveIterator_neg, Nat.sub_sub]
  by_cases hfound : cache.resultsBeforeTarget ≤ it
  · rw [if_neg (by simpa using hfound)]
    by_cases hprefetched : cache.scrollPrefetchSize ≤ it - cache.resultsBeforeTarget
    · rw [if_pos (by simpa using hprefetched)]
      exact .inl ⟨by omega, rfl⟩
    · rw [if_neg (by simpa using hprefetched)]
      exact .inr ⟨by omega, _, rfl⟩
  · rw [if_pos (by simpa using hfound)]
    exact .inr ⟨by omega, _, rfl⟩

/-- The same towards the bottom. -/
theorem lookTowardsBottom_cases (endFirst : Nat)
    (hit : it ≤ cache.trainNodes.nodes.length) :
    (it + (cache.resultsAfterTarget + 1) + cache.scrollPrefetchSize ≤
        cache.trainNodes.nodes.length ∧
      cache.lookTowardsBottom endFirst it =
        ⟨it + (cache.resultsAfterTarget + 1), false, false, nodeAt endFirst cache.trainNodes.nodes
          (it + cache.resultsAfterTarget + cache.scrollPrefetchSize)⟩) ∨
    (cache.trainNodes.nodes.length <
        it + (cache.resultsAfterTarget + 1) + cache.scrollPrefetchSize ∧ ∃ clipped,
      cache.lookTowardsBottom endFirst it =
        ⟨min (it + (cache.resultsAfterTarget + 1)) cache.trainNodes.nodes.length, clipped,
          cache.trainNodes.resultsClippedAtBottom != 0, kMaxNode⟩) := by
  unfold lookTowardsBottom
  simp only [tryMoveIterator_ofNat _ hit,
    tryMoveIterator_ofNat _ (Nat.min_le_right (it + (cache.resultsAfterTarget + 1)) _)]
  by_cases hfound : it + (cache.resultsAfterTarget + 1) ≤ cache.trainNodes.nodes.length
  · rw [if_neg (by simpa using hfound), Nat.min_eq_left hfound]
    by_cases hprefetched : it + (cache.resultsAfterTarget + 1) + cache.scrollPrefetchSize ≤
        cache.trainNodes.nodes.length
    · rw [if_pos (by simpa using hprefetched), Nat.min_eq_left hprefetched]
      refine .inl ⟨hprefetched, ?_⟩
      rw [show it + (cache.resultsAfterTarget + 1) + cache.scrollPrefetchSize - 1 =
        it + cache.resultsAfterTarget + cache.scrollPrefetchSize by omega]
    · rw [if_neg (by simpa using hprefetched)]
      exact .inr ⟨by omega, _, rfl⟩
  · rw [if_pos (by simpa using hfound)]
    exact .inr ⟨by omega, _, rfl⟩

theorem lookTowardsTop_page :
    (cache.lookTowardsTop endFirst it).page = it - cache.resultsBeforeTarget := by
  obtain ⟨-, h⟩ | ⟨-, clipped, h⟩ := lookTowardsTop_cases endFirst cache it <;> rw [h]

theorem lookTowardsBottom_page (endFirst : Nat) (hit : it ≤ cache.trainNodes.nodes.length) :
    (cache.lookTowardsBottom endFirst it).page =
      min (it + (cache.resultsAfterTarget + 1)) cache.trainNodes.nodes.length := by
  obtain ⟨hroom, h⟩ | ⟨-, clipped, h⟩ := lookTowardsBottom_cases endFirst hit
  · rw [h, Nat.min_eq_left (by omega)]
  · rw [h]

end display

/-- The offset of the display is the number of nodes before the first displayed one. -/
def Displayed (nodes : Finset Nat) (cache : TrainNodeInfoCache) : Prop :=
  ∀ first, cache.entries.head? = some first →
    cache.firstResultOffset = (nodes.filter (· < first)).card

/-- The node to be displayed first has fewer than `2 ^ 15` nodes before it, so that its offset fits
an `int16_t`. -/
def OffsetFits (nodes : Finset Nat) (list : List Nat) (target before : Nat) : Prop :=
  ∀ first, list[lowerBound list target - before]? = some first →
    (nodes.filter (· < first)).card < 2 ^ 15

theorem toInt16_ofNat {offset : Nat} (h : offset < 2 ^ 15) : toInt16 offset = offset := by
  rw [toInt16]
  omega

theorem card_filter_lt {nodes : Finset Nat} {above window below : List Nat} {index first : Nat}
    (hparts : nodes.sort = above ++ window ++ below) (hfirst : window[index]? = some first) :
    (nodes.filter (· < first)).card = above.length + index := by
  have hget : nodes.sort[above.length + index]? = some first := by
    have hindex := (List.getElem?_eq_some_iff.mp hfirst).1
    rw [hparts, List.append_assoc, List.getElem?_append_right (by omega), Nat.add_sub_cancel_left,
      List.getElem?_append_left hindex, hfirst]
  have hset : nodes.filter (· < first) = (nodes.sort.filter (· < first)).toFinset := by
    ext node
    simp
  rw [hset, List.toFinset_card_of_nodup ((Finset.sort_nodup nodes _).filter _)]
  exact Sorted.length_filter_lt (Finset.sortedLT_sort nodes).pairwise hget

/-- The first node of the display is the one before the target by the lines above it. -/
theorem head?_entries {cache : TrainNodeInfoCache} {window : List Nat} (endFirst : Nat)
    (hwindow : cache.trainNodes.nodes = window) :
    (cache.updateUiOutput endFirst).entries.head? =
      window[lowerBound window cache.targetNodeId - cache.resultsBeforeTarget]? := by
  have hit := lowerBound_le window cache.targetNodeId
  have hpage : (cache.lookTowardsBottom endFirst (lowerBound window cache.targetNodeId)).page =
      min (lowerBound window cache.targetNodeId + (cache.resultsAfterTarget + 1))
        cache.trainNodes.nodes.length :=
    lookTowardsBottom_page endFirst (by rw [hwindow]; exact hit)
  simp only [updateUiOutput, findSelectionOffset, withOffset, hwindow, lookTowardsTop_page,
    List.head?_drop] at hpage ⊢
  rw [hpage, List.getElem?_take]
  split
  · rfl
  · rw [List.getElem?_eq_none (by omega)]

/-- The offset of the display, as it is stored. -/
theorem resultOffset_updateUiOutput {nodes : Finset Nat} {above window below : List Nat}
    {cache : TrainNodeInfoCache} {endFirst first : Nat}
    (h : Settled nodes.sort above window below cache)
    (hfirst : window[lowerBound window cache.targetNodeId - cache.resultsBeforeTarget]? =
      some first) :
    (cache.updateUiOutput endFirst).trainNodes.resultOffset =
      toInt16 (nodes.filter (· < first)).card := by
  obtain ⟨min, max, hlist⟩ := h.list
  have hascending : window.Pairwise (· < ·) := by
    have hall := (Finset.sortedLT_sort nodes).pairwise
    rw [h.parts] at hall
    exact (List.pairwise_append.mp (List.pairwise_append.mp hall).1).2.1
  simp only [updateUiOutput, findSelectionOffset, withOffset, selectionOffset, hlist.nodes,
    hlist.top, lookTowardsTop_page, hfirst, Option.getD_some,
    Sorted.length_takeWhile_lt hascending hfirst, card_filter_lt h.parts hfirst]

theorem displayed_updateUiOutput {nodes : Finset Nat} {above window below : List Nat}
    {cache : TrainNodeInfoCache} {endFirst : Nat}
    (h : Settled nodes.sort above window below cache)
    (hfits : OffsetFits nodes window cache.targetNodeId cache.resultsBeforeTarget) :
    Displayed nodes (cache.updateUiOutput endFirst) := by
  intro first hentries
  obtain ⟨min, max, hlist⟩ := h.list
  rw [head?_entries endFirst hlist.nodes] at hentries
  have hlt := hfits first hentries
  rw [firstResultOffset, resultOffset_updateUiOutput h hentries, toInt16_ofNat hlt]
  omega

/-- A train list and the nodes that have answered its last search. -/
structure Paging where
  cache : TrainNodeInfoCache
  answered : List Nat
deriving DecidableEq, Repr

namespace Paging

/-- What can happen: calls of the user interface, a reply to a search, the end of a search, and the
end of the iteration over the names. -/
inductive Event where
  | scrollTo (target numBefore numAfter : Nat)
  | scrollUp
  | scrollDown
  | reply (node : Nat)
  | searchDone
  | iterDone
deriving DecidableEq, Repr

/-- The flow sends the request of a new search. -/
def sendPending (cache : TrainNodeInfoCache) (answered : List Nat) : Paging :=
  if cache.needSearch then ⟨cache.sendSearchRequest, []⟩ else ⟨cache, answered⟩

/-- The list after `reset_search`. -/
def start (settings : Settings) : Paging := sendPending (resetSearch settings) []

/-- The page of this call and the nodes to prefetch fit the cache. -/
def PageFits (cache : TrainNodeInfoCache) (numBefore numAfter : Nat) : Prop :=
  2 * cache.scrollPrefetchSize + numBefore + numAfter + 1 ≤ cache.cacheMaxSize

instance (cache : TrainNodeInfoCache) (numBefore numAfter : Nat) :
    Decidable (PageFits cache numBefore numAfter) :=
  inferInstanceAs (Decidable (_ ≤ _))

/-- One event on a railway with these nodes.  Each of them answers a search once, the search is done
after that, and no call comes before. -/
def step (endFirst : Nat) (nodes : Finset Nat) (paging : Paging) : Event → Option Paging
  | .scrollTo target numBefore numAfter =>
    if paging.cache.pendingSearch = false ∧ PageFits paging.cache numBefore numAfter then
      some (sendPending (paging.cache.scrollTo endFirst target numBefore numAfter) paging.answered)
    else none
  | .scrollUp =>
    if paging.cache.pendingSearch = false ∧ PageFits paging.cache 0 paging.cache.pageAfterTop then
      some (sendPending (paging.cache.scrollUp endFirst).2 paging.answered)
    else none
  | .scrollDown =>
    if paging.cache.pendingSearch = false ∧ PageFits paging.cache 0 paging.cache.pageAfterTop then
      some (sendPending (paging.cache.scrollDown endFirst).2 paging.answered)
    else none
  | .reply node =>
    if paging.cache.pendingSearch = true ∧ node ∈ nodes ∧ node ∉ paging.answered then
      some ⟨paging.cache.resultCallback node, paging.answered ++ [node]⟩
    else none
  | .searchDone =>
    if paging.cache.pendingSearch = true ∧ ∀ node ∈ nodes, node ∈ paging.answered then
      some ⟨paging.cache.searchDone endFirst, paging.answered⟩
    else none
  | .iterDone => some ⟨paging.cache.iterDone endFirst, paging.answered⟩

/-- A search under way. -/
inductive Searching (all : List Nat) (paging : Paging) : Prop
  | first (search : paging.cache.FirstSearch paging.answered) (nodup : paging.answered.Nodup)
      (known : ∀ node ∈ paging.answered, node ∈ all)
  | down {above window below : List Nat} {limit : Nat} (parts : all = above ++ window ++ below)
      (layout : Layout above window below)
      (search : Downwards above window below limit paging.answered paging.cache)
  | up {above window below : List Nat} {spare : Nat} (parts : all = above ++ window ++ below)
      (layout : Layout above window below)
      (search : Upwards above window below spare paging.answered paging.cache)

section searching

variable {all : List Nat} {paging : Paging} {node : Nat}

theorem Searching.reply (h : Searching all paging) (hids : ∀ node ∈ all, IsNodeId node)
    (hnode : node ∈ all) (hnew : node ∉ paging.answered) :
    ∃ list, paging.cache.resultCallback node = paging.cache.withTrainNodes list ∧
      Searching all ⟨paging.cache.withTrainNodes list, paging.answered ++ [node]⟩ := by
  cases h with
  | first search nodup known =>
    obtain ⟨list, heq, hsearch⟩ := search.resultCallback (hids node hnode)
    refine ⟨list, heq, .first hsearch ?_ ?_⟩
    · rw [List.nodup_append]
      refine ⟨nodup, by simp, ?_⟩
      rintro other hother _ hlast rfl
      exact hnew (List.mem_singleton.mp hlast ▸ hother)
    · intro other hother
      rcases List.mem_append.mp hother with hother | hother
      · exact known other hother
      · exact List.mem_singleton.mp hother ▸ hnode
  | down parts layout search =>
    obtain ⟨list, heq, hsearch⟩ := search.resultCallback layout (parts ▸ hnode) hnew
    exact ⟨list, heq, .down parts layout hsearch⟩
  | up parts layout search =>
    obtain ⟨list, heq, hsearch⟩ := search.resultCallback layout (parts ▸ hnode) hnew
    exact ⟨list, heq, .up parts layout hsearch⟩

theorem Searching.settled (h : Searching all paging) (hall : all.Pairwise (· < ·))
    (hfew : all.length < 2 ^ 16) (hdone : ∀ node ∈ all, node ∈ paging.answered) :
    ∃ above window below, Settled all above window below paging.cache := by
  cases h with
  | first search nodup known =>
    have hcollect : Sorted.collect paging.answered = all :=
      Sorted.collect_eq hall fun node => ⟨known node, hdone node⟩
    exact ⟨_, _, _, search.settled nodup hcollect hfew⟩
  | down parts layout search =>
    subst parts
    exact ⟨_, _, _, search.settled layout fun node => ⟨search.known node, hdone node⟩⟩
  | up parts layout search =>
    subst parts
    exact ⟨_, _, _, search.settled layout fun node => ⟨search.known node, hdone node⟩⟩

end searching

/-- The display has changed, but not the list nor the search. -/
structure SameList (cache cache' : TrainNodeInfoCache) : Prop where
  minResult : cache'.minResult = cache.minResult
  maxResult : cache'.maxResult = cache.maxResult
  cacheMaxSize : cache'.cacheMaxSize = cache.cacheMaxSize
  scrollPrefetchSize : cache'.scrollPrefetchSize = cache.scrollPrefetchSize
  trainNodes : ∃ offset, cache'.trainNodes = { cache.trainNodes with resultOffset := offset }

section sameList

variable {cache cache' : TrainNodeInfoCache} {all above window below : List Nat}

theorem SameList.holds (h : SameList cache cache') {nodes : List Nat}
    {top bottom newTop newBottom min max : Nat}
    (hlist : cache.trainNodes.Holds nodes top bottom newTop newBottom min max) :
    cache'.trainNodes.Holds nodes top bottom newTop newBottom min max := by
  obtain ⟨offset, heq⟩ := h.trainNodes
  rw [heq]
  exact hlist.offset

theorem SameList.settled (h : SameList cache cache')
    (hsettled : Settled all above window below cache) :
    Settled all above window below cache' :=
  hsettled.congr h.cacheMaxSize h.trainNodes

theorem SameList.searching (h : SameList cache cache') {answered : List Nat}
    (hsearching : Searching all ⟨cache, answered⟩) : Searching all ⟨cache', answered⟩ := by
  cases hsearching with
  | first search nodup known =>
    refine .first ⟨h.minResult.trans search.minResult, h.maxResult.trans search.maxResult, ?_⟩
      nodup known
    rw [h.cacheMaxSize]
    exact h.holds search.list
  | down parts layout search =>
    refine .down parts layout ⟨search.size.trans h.cacheMaxSize.symm, ?_,
      h.maxResult.trans search.maxResult, search.known, h.holds search.list⟩
    rw [h.minResult]
    exact search.minResult
  | up parts layout search =>
    refine .up parts layout ⟨search.size.trans h.cacheMaxSize.symm,
      h.minResult.trans search.minResult, ?_, search.spare_pos, search.spare_lt, search.known,
      h.holds search.list⟩
    rw [h.maxResult]
    exact search.maxResult

theorem sameList_updateUiOutput (cache : TrainNodeInfoCache) (endFirst : Nat) :
    SameList cache (cache.updateUiOutput endFirst) :=
  ⟨rfl, rfl, rfl, rfl, _, rfl⟩

theorem sameList_withOffset (cache : TrainNodeInfoCache) (offset : Int) :
    SameList cache (cache.withOffset offset) :=
  ⟨rfl, rfl, rfl, rfl, offset, rfl⟩

theorem SameList.trans {cache'' : TrainNodeInfoCache} (h : SameList cache cache')
    (h' : SameList cache' cache'') : SameList cache cache'' := by
  obtain ⟨offset, heq⟩ := h.trainNodes
  obtain ⟨offset', heq'⟩ := h'.trainNodes
  exact ⟨h'.minResult.trans h.minResult, h'.maxResult.trans h.maxResult,
    h'.cacheMaxSize.trans h.cacheMaxSize, h'.scrollPrefetchSize.trans h.scrollPrefetchSize, offset', by rw [heq', heq]⟩

/-- `search_done` and `iter_done` refresh the display. -/
theorem sameList_refresh (cache : TrainNodeInfoCache) (offset : Int) (endFirst : Nat) :
    SameList cache ((cache.withOffset offset).updateUiOutput endFirst) :=
  (sameList_withOffset cache offset).trans (sameList_updateUiOutput _ endFirst)

end sameList

section scrollTo

variable {all above window below : List Nat} {cache : TrainNodeInfoCache}
  {endFirst target numBefore numAfter : Nat}

/-- The limit for the refill of a list is read past its end. -/
def ReadsEnd (cache : TrainNodeInfoCache) (target numBefore : Nat) : Prop :=
  cache.scrollPrefetchSize = 0 ∧ numBefore % 2 ^ 4 = 0 ∧
    (∀ node ∈ cache.trainNodes.nodes, node < target) ∧
    cache.trainNodes.resultsClippedAtBottom ≠ 0

/-- `invoke_paginate` starts a search from the list as it is. -/
theorem paginate_holds (h : Settled all above window below cache) :
    (invokePaginate cache).trainNodes.Holds window above.length below.length 0 0 (firstOf window)
      (lastOf window) := by
  obtain ⟨min, max, hlist⟩ := h.list
  refine ⟨hlist.nodes, hlist.newTop, hlist.newBottom, rfl, rfl, ?_, ?_⟩
  · exact congrArg firstOf hlist.nodes
  · exact congrArg lastOf hlist.nodes

/-- A search downwards from the node at `limit`. -/
theorem downwards_start (h : Settled all above window below cache)
    (hfull : window.length = cache.cacheMaxSize) {limit : Nat} (hlimit : limit < window.length)
    (hmin : cache.minResult = nodeAt endFirst window limit) (hmax : cache.maxResult = kMaxNode) :
    Downwards above window below limit [] (invokePaginate cache).sendSearchRequest := by
  refine ⟨hfull, ?_, hmax, by simp, ?_⟩
  · have hget : nodeAt endFirst window limit = window.get ⟨limit, hlimit⟩ := by
      rw [nodeAt, List.getElem?_eq_getElem hlimit]
      rfl
    rw [List.getElem?_eq_getElem hlimit]
    exact congrArg some (hget.symm.trans hmin.symm)
  · have hlist := paginate_holds h
    simp only [HoldsDownwards, repliesAbove, repliesBelow, downwards, List.filter_nil,
      Sorted.collect_nil, List.length_nil, Nat.zero_min, List.drop_zero, List.take_nil,
      List.append_nil, Nat.add_zero, Nat.sub_zero]
    exact hlist

/-- A search upwards from the node at `limit`. -/
theorem upwards_start (h : Settled all above window below cache)
    (hfull : window.length = cache.cacheMaxSize) {limit : Nat} (hlimit : limit + 1 < window.length)
    (hmin : cache.minResult = kMinNode) (hmax : cache.maxResult = nodeAt endFirst window limit) :
    Upwards above window below (window.length - limit - 1) []
      (invokePaginate cache).sendSearchRequest := by
  have hlt : limit < window.length := by omega
  have hindex : window.length - (window.length - limit - 1) - 1 = limit := by omega
  refine ⟨hfull, hmin, ?_, by omega, by omega, by simp, ?_⟩
  · have hget : nodeAt endFirst window limit = window.get ⟨limit, hlt⟩ := by
      rw [nodeAt, List.getElem?_eq_getElem hlt]
      rfl
    rw [hindex, List.getElem?_eq_getElem hlt]
    exact congrArg some (hget.symm.trans hmax.symm)
  · have hlist := paginate_holds h
    simp only [HoldsUpwards, repliesAbove, repliesBelow, upwards, List.filter_nil,
      Sorted.collect_nil, List.length_nil, Nat.zero_min, List.drop_nil, Nat.sub_zero,
      List.take_length, List.nil_append, Nat.add_zero]
    exact hlist

/-- What `update_ui_output` returns for a settled list: on each side there are enough nodes, or a
refill is needed if nodes were clipped there. -/
theorem uiOutput_cases (hsettled : Settled all above window below cache) (endFirst : Nat) :
    let it := lowerBound window cache.targetNodeId
    let output := cache.uiOutput endFirst
    ∃ refillTop refillBottom, output.needRefillCache = (refillTop || refillBottom) ∧
      ((cache.resultsBeforeTarget + cache.scrollPrefetchSize ≤ it ∧ refillTop = false ∧
          output.refillMinNode = nodeAt endFirst window
            (it - (cache.resultsBeforeTarget + cache.scrollPrefetchSize))) ∨
        (it < cache.resultsBeforeTarget + cache.scrollPrefetchSize ∧
          refillTop = (above.length != 0) ∧ output.refillMinNode = kMinNode)) ∧
      ((it + cache.resultsAfterTarget + cache.scrollPrefetchSize < window.length ∧
          refillBottom = false ∧ output.refillMaxNode = nodeAt endFirst window
            (it + cache.resultsAfterTarget + cache.scrollPrefetchSize)) ∨
        (window.length ≤ it + cache.resultsAfterTarget + cache.scrollPrefetchSize ∧
          refillBottom = (below.length != 0) ∧ output.refillMaxNode = kMaxNode)) := by
  obtain ⟨min, max, hlist⟩ := hsettled.list
  have hit : lowerBound window cache.targetNodeId ≤ cache.trainNodes.nodes.length := by
    rw [hlist.nodes]
    exact lowerBound_le _ _
  have hTop := lookTowardsTop_cases endFirst cache (lowerBound window cache.targetNodeId)
  have hBottom := lookTowardsBottom_cases endFirst hit
  rw [hlist.nodes, hlist.top] at hTop
  rw [hlist.nodes, hlist.bottom] at hBottom
  unfold uiOutput
  simp only [hlist.nodes]
  refine ⟨_, _, rfl, ?_, ?_⟩
  · obtain ⟨hroom, hTop⟩ | ⟨hshort, _, hTop⟩ := hTop
    · rw [hTop]
      exact .inl ⟨hroom, rfl, rfl⟩
    · rw [hTop]
      exact .inr ⟨hshort, rfl, rfl⟩
  · obtain ⟨hroom, hBottom⟩ | ⟨hshort, _, hBottom⟩ := hBottom
    · rw [hBottom]
      exact .inl ⟨by omega, rfl, rfl⟩
    · rw [hBottom]
      exact .inr ⟨by omega, rfl, rfl⟩

/-- `scroll_to` shows another part of the list and, near a clipped end of it, starts a search for
more nodes at that end.  It is never near both ends. -/
theorem scrollTo_cases (endFirst : Nat) (hsettled : Settled all above window below cache)
    (hpending : cache.pendingSearch = false) (hfits : PageFits cache numBefore numAfter)
    (hend : ¬ ReadsEnd cache target numBefore) :
    (cache.scrollTo endFirst target numBefore numAfter =
        (cache.setTarget target numBefore numAfter).updateUiOutput endFirst ∧
      (lowerBound window target + numAfter % 2 ^ 4 + cache.scrollPrefetchSize < window.length ∨
        below.length = 0)) ∨
    (∃ minResult maxResult,
      cache.scrollTo endFirst target numBefore numAfter = invokePaginate
        (((cache.setTarget target numBefore numAfter).updateUiOutput endFirst).withLimits
          minResult maxResult) ∧
      (Downwards above window below
          (lowerBound window target - (numBefore % 2 ^ 4 + cache.scrollPrefetchSize)) []
          (cache.scrollTo endFirst target numBefore numAfter).sendSearchRequest ∨
        lowerBound window target + numAfter % 2 ^ 4 + cache.scrollPrefetchSize < window.length ∧
        ∃ spare, Upwards above window below spare []
          (cache.scrollTo endFirst target numBefore numAfter).sendSearchRequest)) := by
  obtain ⟨min, max, hlist⟩ := hsettled.list
  have hit : lowerBound window target ≤ window.length := lowerBound_le window target
  have hsettled' : Settled all above window below (cache.setTarget target numBefore numAfter) :=
    hsettled.congr rfl ⟨_, rfl⟩
  obtain ⟨refillTop, refillBottom, hrefill, hTop, hBottom⟩ := uiOutput_cases hsettled' endFirst
  simp only [setTarget_targetNodeId, setTarget_resultsBeforeTarget, setTarget_resultsAfterTarget,
    setTarget_scrollPrefetchSize] at hTop hBottom
  unfold PageFits at hfits
  by_cases hneed : refillTop = false ∧ refillBottom = false
  · have heq : cache.scrollTo endFirst target numBefore numAfter =
        (cache.setTarget target numBefore numAfter).updateUiOutput endFirst := by
      rw [scrollTo, if_neg (by simp [hrefill, hneed])]
    refine .inl ⟨heq, ?_⟩
    obtain ⟨hroom, -⟩ | ⟨-, hbelow, -⟩ := hBottom
    · exact .inl hroom
    · exact .inr (by simpa [hneed] using hbelow)
  -- One side needs a refill, so that the list is full.
  have heq : cache.scrollTo endFirst target numBefore numAfter = invokePaginate
      (((cache.setTarget target numBefore numAfter).updateUiOutput endFirst).withLimits
        ((cache.setTarget target numBefore numAfter).uiOutput endFirst).refillMinNode
        ((cache.setTarget target numBefore numAfter).uiOutput endFirst).refillMaxNode) := by
    have htrue : (refillTop || refillBottom) = true := by
      cases refillTop <;> cases refillBottom <;> simp_all
    rw [scrollTo, if_pos ⟨by rw [hrefill, htrue], hpending⟩]
  have hlimits : Settled all above window below
      (((cache.setTarget target numBefore numAfter).updateUiOutput endFirst).withLimits
        ((cache.setTarget target numBefore numAfter).uiOutput endFirst).refillMinNode
        ((cache.setTarget target numBefore numAfter).uiOutput endFirst).refillMaxNode) :=
    hsettled.congr rfl ⟨_, rfl⟩
  refine .inr ⟨_, _, heq, ?_⟩
  rw [heq]
  obtain ⟨hroomTop, htop, hmin⟩ | ⟨hshortTop, htop, hmin⟩ := hTop <;>
    obtain ⟨hroomBottom, hbottom, hmax⟩ | ⟨hshortBottom, hbottom, hmax⟩ := hBottom
  · exact absurd ⟨htop, hbottom⟩ hneed
  · have hbelow : below.length ≠ 0 := fun hzero => hneed ⟨htop, by simp [hbottom, hzero]⟩
    refine .inl (downwards_start hlimits (hsettled.full (.inr hbelow)) ?_ hmin hmax)
    by_contra hlimit
    refine hend ⟨by omega, by omega, ?_, by rw [hlist.bottom]; exact hbelow⟩
    have hcount : lowerBound window target = window.length := by omega
    rw [hlist.nodes]
    simpa [lowerBound, List.countP_eq_length] using hcount
  · have habove : above.length ≠ 0 := fun hzero => hneed ⟨by simp [htop, hzero], hbottom⟩
    have hfull := hsettled.full (.inl habove)
    exact .inr ⟨hroomBottom, _, upwards_start hlimits hfull (by omega) hmin hmax⟩
  · have hany : above.length ≠ 0 ∨ below.length ≠ 0 := by
      by_contra hnone
      exact hneed ⟨by simp_all, by simp_all⟩
    have hfull := hsettled.full hany
    omega

end scrollTo

/-- The condition on an event: the offset of the node that is to be displayed first fits, and no
node is read past the end of the list. -/
def Allowed (endFirst : Nat) (nodes : Finset Nat) (paging : Paging) : Event → Prop
  | .scrollTo target numBefore _ =>
    OffsetFits nodes paging.cache.trainNodes.nodes target (numBefore % 2 ^ 4) ∧
      ¬ ReadsEnd paging.cache target numBefore
  | .scrollUp => ∀ target, paging.cache.upTarget endFirst = some target →
    OffsetFits nodes paging.cache.trainNodes.nodes target 0
  | .scrollDown => ∀ target, paging.cache.downTarget endFirst = some target →
    OffsetFits nodes paging.cache.trainNodes.nodes target 0
  | .reply _ => True
  | .searchDone | .iterDone => OffsetFits nodes paging.cache.trainNodes.nodes
    paging.cache.targetNodeId paging.cache.resultsBeforeTarget

/-- The bookkeeping of a list is exact. -/
structure Bookkept (nodes : Finset Nat) (cache : TrainNodeInfoCache) : Prop where
  numResults : cache.numResults = nodes.card
  contiguous : cache.trainNodes.nodes <:+: nodes.sort
  length : cache.trainNodes.nodes.length = min nodes.card cache.cacheMaxSize
  offset : Displayed nodes cache

theorem bookkept_of_settled {nodes : Finset Nat} {cache : TrainNodeInfoCache}
    {above window below : List Nat} (h : Settled nodes.sort above window below cache)
    (hdisplayed : Displayed nodes cache) : Bookkept nodes cache := by
  obtain ⟨min, max, hlist⟩ := h.list
  have hlength : nodes.card = above.length + window.length + below.length := by
    rw [← Finset.length_sort (· ≤ ·), h.parts, List.length_append, List.length_append]
  refine ⟨?_, ?_, ?_, hdisplayed⟩
  · rw [TrainNodeInfoCache.numResults, hlist.numResults, hlength]
    omega
  · rw [hlist.nodes, h.parts]
    exact ⟨above, below, rfl⟩
  · rw [hlist.nodes, h.size, Finset.length_sort]

/-- Between the calls the list is settled and its display right; a search keeps to its state. -/
structure Good (nodes : Finset Nat) (paging : Paging) : Prop where
  size : paging.cache.cacheMaxSize < 2 ^ 6
  needSearch : paging.cache.needSearch = false
  idle : paging.cache.pendingSearch = false →
    (∃ above window below, Settled nodes.sort above window below paging.cache) ∧
      Displayed nodes paging.cache
  searching : paging.cache.pendingSearch = true → Searching nodes.sort paging

section step

variable {nodes : Finset Nat} {paging paging' : Paging} {endFirst target numBefore numAfter : Nat}

theorem ascending_sort (nodes : Finset Nat) : nodes.sort.Pairwise (· < ·) :=
  (Finset.sortedLT_sort nodes).pairwise

theorem good_start (nodes : Finset Nat) (settings : Settings) : Good nodes (start settings) := by
  have hsearch := firstSearch_resetSearch settings
  refine ⟨settings.cacheMaxSize.isLt, rfl, ?_, ?_⟩
  · intro hpending
    exact absurd (show true = false from hpending) (by simp)
  · intro _
    exact .first ⟨hsearch.minResult, hsearch.maxResult, hsearch.list⟩ List.nodup_nil
      (fun _ hnode => absurd hnode List.not_mem_nil)

/-- A display of a settled list. -/
theorem good_display (cache : TrainNodeInfoCache) {cache' : TrainNodeInfoCache} {answered : List Nat}
    (hsize : cache.cacheMaxSize < 2 ^ 6) (hneed : cache'.needSearch = false)
    (hpending : cache'.pendingSearch = false) (hsame : SameList cache cache')
    (hsettled : ∃ above window below, Settled nodes.sort above window below cache)
    (hdisplayed : Displayed nodes cache') : Good nodes ⟨cache', answered⟩ := by
  obtain ⟨above, window, below, hsettled⟩ := hsettled
  refine ⟨hsame.cacheMaxSize ▸ hsize, hneed, ?_, ?_⟩
  · intro _
    exact ⟨⟨above, window, below, hsame.settled hsettled⟩, hdisplayed⟩
  · intro hsearching
    exact absurd (hpending.symm.trans hsearching) (by simp)

theorem scrollTo_cacheMaxSize (endFirst target numBefore numAfter : Nat)
    (cache : TrainNodeInfoCache) :
    (cache.scrollTo endFirst target numBefore numAfter).cacheMaxSize = cache.cacheMaxSize := by
  unfold TrainNodeInfoCache.scrollTo
  dsimp only
  split <;> rfl

theorem Good.scrollTo (h : Good nodes paging) (hids : ∀ node ∈ nodes, IsNodeId node)
    (hfew : nodes.card < 2 ^ 16) (hpending : paging.cache.pendingSearch = false)
    (hpage : PageFits paging.cache numBefore numAfter)
    (hoffset : OffsetFits nodes paging.cache.trainNodes.nodes target (numBefore % 2 ^ 4))
    (hend : ¬ ReadsEnd paging.cache target numBefore) :
    Good nodes
      (sendPending (paging.cache.scrollTo endFirst target numBefore numAfter) paging.answered) := by
  obtain ⟨⟨above, window, below, hsettled⟩, -⟩ := h.idle hpending
  have hids' : ∀ node ∈ nodes.sort, IsNodeId node := fun node hnode =>
    hids node ((Finset.mem_sort _).mp hnode)
  have hfew' : nodes.sort.length < 2 ^ 16 := by
    rw [Finset.length_sort]
    exact hfew
  have hsize := scrollTo_cacheMaxSize endFirst target numBefore numAfter paging.cache
  obtain ⟨heq, -⟩ | ⟨_, _, heq, hsearch⟩ := scrollTo_cases endFirst hsettled hpending hpage hend
  · have hsettled' : Settled nodes.sort above window below
        (paging.cache.setTarget target numBefore numAfter) := hsettled.congr rfl ⟨_, rfl⟩
    have hneed : ((paging.cache.setTarget target numBefore numAfter).updateUiOutput
        endFirst).needSearch = false := h.needSearch
    obtain ⟨min, max, hlist⟩ := hsettled.list
    rw [hlist.nodes] at hoffset
    rw [heq, sendPending, hneed]
    exact good_display (paging.cache.setTarget target numBefore numAfter) h.size hneed
      hpending (sameList_updateUiOutput _ endFirst) ⟨above, window, below, hsettled'⟩
      (displayed_updateUiOutput hsettled' hoffset)
  · have hsearching : Searching nodes.sort
        ⟨(paging.cache.scrollTo endFirst target numBefore numAfter).sendSearchRequest, []⟩ := by
      obtain hdown | ⟨-, spare, hup⟩ := hsearch
      · exact .down hsettled.parts (hsettled.layout (ascending_sort nodes) hids' hfew'
          (List.ne_nil_of_length_pos (Nat.zero_lt_of_lt hdown.limit_lt))) hdown
      · exact .up hsettled.parts (hsettled.layout (ascending_sort nodes) hids' hfew'
          (List.ne_nil_of_length_pos (Nat.zero_lt_of_lt hup.spare_lt))) hup
    rw [heq] at hsize hsearching ⊢
    refine ⟨?_, rfl, ?_, fun _ => hsearching⟩
    · exact hsize ▸ h.size
    · intro hidle
      exact absurd (show true = false from hidle) (by simp)

/-- A node of the list is not behind its end. -/
theorem not_readsEnd {cache : TrainNodeInfoCache} (h : target ∈ cache.trainNodes.nodes) :
    ¬ ReadsEnd cache target numBefore :=
  fun hend => Nat.lt_irrefl _ (hend.2.2.1 target h)

theorem nodeAt_mem {list : List Nat} {index : Nat} (h : index < list.length) :
    nodeAt endFirst list index ∈ list := by
  rw [nodeAt, List.getElem?_eq_getElem h]
  exact List.getElem_mem h

theorem upTarget_mem {cache : TrainNodeInfoCache} (h : cache.upTarget endFirst = some target) :
    target ∈ cache.trainNodes.nodes := by
  have hit := lowerBound_le cache.trainNodes.nodes cache.topNodeId
  unfold upTarget at h
  dsimp only at h
  rw [show (-1 : Int) = -((1 : Nat) : Int) from rfl, tryMoveIterator_neg] at h
  simp only at h
  split at h
  next hmoved =>
    rw [← Option.some_inj.mp h]
    exact nodeAt_mem (by simp at hmoved; omega)
  · exact absurd h (by simp)

theorem downTarget_mem {cache : TrainNodeInfoCache} (hsize : cache.cacheMaxSize < 2 ^ 6)
    (hpage : PageFits cache 0 cache.pageAfterTop) (h : cache.downTarget endFirst = some target) :
    target ∈ cache.trainNodes.nodes := by
  have hit := lowerBound_le cache.trainNodes.nodes cache.topNodeId
  -- A page without lines would not fit.
  have hlines : cache.scrollLines ≠ 0 := by
    rw [PageFits, pageAfterTop] at hpage
    rw [scrollLines]
    split <;> omega
  unfold downTarget at h
  rw [show (1 : Int) = ((1 : Nat) : Int) from rfl] at h
  simp only [tryMoveIterator_ofNat _ hit, tryMoveIterator_ofNat _ (Nat.min_le_right _ _)] at h
  split at h
  · exact absurd h (by simp)
  split at h
  next hmoved =>
    rw [← Option.some_inj.mp h]
    refine nodeAt_mem ?_
    simp only [decide_eq_true_eq] at hmoved
    omega
  · exact absurd h (by simp)

/-- `search_done` and `iter_done` display a settled list once more. -/
theorem displayed_refresh (endFirst : Nat) {cache : TrainNodeInfoCache}
    (h : ∃ above window below, Settled nodes.sort above window below cache) (offset : Int)
    (hoffset : OffsetFits nodes cache.trainNodes.nodes cache.targetNodeId
      cache.resultsBeforeTarget) :
    Displayed nodes ((cache.withOffset offset).updateUiOutput endFirst) := by
  obtain ⟨above, window, below, hsettled⟩ := h
  have hsettled' := (sameList_withOffset cache offset).settled hsettled
  obtain ⟨min, max, hlist⟩ := hsettled.list
  rw [hlist.nodes] at hoffset
  exact displayed_updateUiOutput hsettled' hoffset

theorem withOffset_flags (endFirst : Nat) (cache : TrainNodeInfoCache) (offset : Int) :
    ((cache.withOffset offset).updateUiOutput endFirst).needSearch = cache.needSearch ∧
      ((cache.withOffset offset).updateUiOutput endFirst).pendingSearch = cache.pendingSearch :=
  ⟨rfl, rfl⟩

theorem Good.searchDone (h : Good nodes paging)
    (hsettled : ∃ above window below, Settled nodes.sort above window below paging.cache)
    (hoffset : OffsetFits nodes paging.cache.trainNodes.nodes paging.cache.targetNodeId
      paging.cache.resultsBeforeTarget) :
    Good nodes ⟨paging.cache.searchDone endFirst, paging.answered⟩ := by
  rw [TrainNodeInfoCache.searchDone, findSelectionOffset]
  generalize paging.cache.selectionOffset = offset
  obtain ⟨hneed, hpending⟩ := withOffset_flags endFirst paging.cache offset
  have hsame := sameList_refresh paging.cache offset endFirst
  rw [if_neg (by rw [hneed, h.needSearch]; simp)]
  refine good_display paging.cache h.size (hneed.trans h.needSearch) rfl
    ⟨hsame.minResult, hsame.maxResult, hsame.cacheMaxSize, hsame.scrollPrefetchSize,
      hsame.trainNodes⟩ hsettled ?_
  exact displayed_refresh endFirst hsettled _ hoffset

theorem Good.iterDone (h : Good nodes paging)
    (hoffset : OffsetFits nodes paging.cache.trainNodes.nodes paging.cache.targetNodeId
      paging.cache.resultsBeforeTarget) :
    Good nodes ⟨paging.cache.iterDone endFirst, paging.answered⟩ := by
  rw [TrainNodeInfoCache.iterDone, findSelectionOffset]
  generalize paging.cache.selectionOffset = offset
  obtain ⟨hneed, hpending⟩ := withOffset_flags endFirst paging.cache offset
  have hsame := sameList_refresh paging.cache offset endFirst
  have hdisplayed := fun hsettled : ∃ above window below,
    Settled nodes.sort above window below paging.cache => displayed_refresh endFirst hsettled offset
  generalize (paging.cache.withOffset offset).updateUiOutput endFirst = cache' at *
  rw [if_neg (by rw [hneed, h.needSearch]; simp)]
  refine ⟨hsame.cacheMaxSize ▸ h.size, hneed.trans h.needSearch, ?_, ?_⟩
  · intro hidle
    obtain ⟨hsettled, -⟩ := h.idle (hpending.symm.trans hidle)
    refine ⟨?_, hdisplayed hsettled hoffset⟩
    obtain ⟨above, window, below, hsettled⟩ := hsettled
    exact ⟨above, window, below, hsame.settled hsettled⟩
  · intro hsearching
    exact hsame.searching (h.searching (hpending.symm.trans hsearching))

theorem Good.step (h : Good nodes paging) (hids : ∀ node ∈ nodes, IsNodeId node)
    (hfew : nodes.card < 2 ^ 16) {event : Event} (hallowed : Allowed endFirst nodes paging event)
    (hstep : step endFirst nodes paging event = some paging') : Good nodes paging' := by
  cases event with
  | scrollTo target numBefore numAfter =>
    obtain ⟨⟨hpending, hpage⟩, heq⟩ := Option.ite_none_right_eq_some.mp hstep
    rw [← Option.some_inj.mp heq]
    exact h.scrollTo hids hfew hpending hpage hallowed.1 hallowed.2
  | scrollUp =>
    obtain ⟨⟨hpending, hpage⟩, heq⟩ := Option.ite_none_right_eq_some.mp hstep
    rw [← Option.some_inj.mp heq, scrollUp]
    cases htarget : paging.cache.upTarget endFirst with
    | none =>
      rw [sendPending, h.needSearch]
      exact h
    | some target =>
      exact h.scrollTo hids hfew hpending hpage (hallowed target htarget)
        (not_readsEnd (upTarget_mem htarget))
  | scrollDown =>
    obtain ⟨⟨hpending, hpage⟩, heq⟩ := Option.ite_none_right_eq_some.mp hstep
    rw [← Option.some_inj.mp heq, scrollDown]
    cases htarget : paging.cache.downTarget endFirst with
    | none =>
      rw [sendPending, h.needSearch]
      exact h
    | some target =>
      exact h.scrollTo hids hfew hpending hpage (hallowed target htarget)
        (not_readsEnd (downTarget_mem h.size hpage htarget))
  | reply node =>
    obtain ⟨⟨hpending, hnode, hnew⟩, heq⟩ := Option.ite_none_right_eq_some.mp hstep
    obtain ⟨list, hreply, hsearching⟩ := (h.searching hpending).reply
      (fun node hnode => hids node ((Finset.mem_sort _).mp hnode))
      ((Finset.mem_sort _).mpr hnode) hnew
    rw [← Option.some_inj.mp heq, hreply]
    refine ⟨h.size, h.needSearch, ?_, fun _ => hsearching⟩
    intro hidle
    exact absurd (hpending.symm.trans hidle) (by simp)
  | searchDone =>
    obtain ⟨⟨hpending, hdone⟩, heq⟩ := Option.ite_none_right_eq_some.mp hstep
    rw [← Option.some_inj.mp heq]
    have hsettled := (h.searching hpending).settled (ascending_sort nodes)
      (by rw [Finset.length_sort]; exact hfew)
      fun node hnode => hdone node ((Finset.mem_sort _).mp hnode)
    exact h.searchDone hsettled hallowed
  | iterDone =>
    rw [← Option.some_inj.mp hstep]
    exact h.iterDone hallowed

end step

/-- The bookkeeping of a list is exact after every completed search and every call, in a run in
which the offset of each display fits and no node is read past the end of the list. -/
theorem bookkeeping_exact (settings : Settings) (endFirst : Nat) (nodes : Finset Nat)
    (hids : ∀ node ∈ nodes, IsNodeId node) (hfew : nodes.card < 2 ^ 16) (history : List Event)
    (hallowed : Trace.EachStep (step endFirst nodes)
      (fun _ paging event _ => Allowed endFirst nodes paging event) (start settings) history) :
    Trace.Always (step endFirst nodes)
      (fun _ paging => paging.cache.pendingSearch = false → Bookkept nodes paging.cache)
      (start settings) history := by
  intro past future paging heq hrun hidle
  have hgood : Good nodes paging :=
    Trace.invariant (I := fun _ paging => Good nodes paging) (good_start nodes settings)
      (fun _ event _ _ _ hgood (hevent : Allowed endFirst nodes _ event) hstep =>
        hgood.step hids hfew hevent hstep)
      (Trace.EachStep.of_append (heq ▸ hallowed)) hrun
  obtain ⟨⟨above, window, below, hsettled⟩, hdisplayed⟩ := hgood.idle hidle
  exact bookkept_of_settled hsettled hdisplayed

instance (nodes : Finset Nat) (list : List Nat) (target before : Nat) :
    Decidable (OffsetFits nodes list target before) :=
  inferInstanceAs (Decidable (∀ first ∈ list[lowerBound list target - before]?, _))

instance (cache : TrainNodeInfoCache) (target numBefore : Nat) :
    Decidable (ReadsEnd cache target numBefore) :=
  inferInstanceAs (Decidable (_ ∧ _ ∧ _ ∧ _))

instance (endFirst : Nat) (nodes : Finset Nat) (paging : Paging) (event : Event) :
    Decidable (Allowed endFirst nodes paging event) :=
  match event with
  | .scrollTo _ _ _ => inferInstanceAs (Decidable (_ ∧ ¬ _))
  | .scrollUp => inferInstanceAs (Decidable (∀ target ∈ paging.cache.upTarget endFirst, _))
  | .scrollDown => inferInstanceAs (Decidable (∀ target ∈ paging.cache.downTarget endFirst, _))
  | .reply _ => inferInstanceAs (Decidable True)
  | .searchDone => inferInstanceAs (Decidable (OffsetFits _ _ _ _))
  | .iterDone => inferInstanceAs (Decidable (OffsetFits _ _ _ _))

/-- Five nodes, a list of three, and a search downwards. -/
def scrollThroughFive : List Event :=
  [.reply 4, .reply 2, .reply 5, .reply 1, .reply 3, .searchDone, .iterDone, .scrollTo 3 0 0,
    .reply 1, .reply 5, .reply 4, .reply 3, .reply 2, .searchDone]

theorem bookkeeping_exact_fiveNodes :
    Trace.Always (step 0 {1, 2, 3, 4, 5})
        (fun _ paging => paging.cache.pendingSearch = false →
          Bookkept {1, 2, 3, 4, 5} paging.cache)
        (start ⟨1, 3, 1, false⟩) scrollThroughFive ∧
      (Trace.run (step 0 {1, 2, 3, 4, 5}) (start ⟨1, 3, 1, false⟩) scrollThroughFive).isSome := by
  have hchecked : Trace.EachStep (step 0 {1, 2, 3, 4, 5})
      (fun _ paging event _ => Allowed 0 {1, 2, 3, 4, 5} paging event)
      (start ⟨1, 3, 1, false⟩) scrollThroughFive := by
    have hcheck : Trace.check (step 0 {1, 2, 3, 4, 5})
        (fun paging event => decide (Allowed 0 {1, 2, 3, 4, 5} paging event))
        (start ⟨1, 3, 1, false⟩) scrollThroughFive = true := by decide
    intro past event future t u heq hrun hstep
    exact of_decide_eq_true (Trace.eachStep_of_check hcheck past event future t u heq hrun hstep)
  refine ⟨bookkeeping_exact ⟨1, 3, 1, false⟩ 0 {1, 2, 3, 4, 5} ?_ (by decide) _ hchecked,
    by decide⟩
  simp [IsNodeId, kMaxNode]

end Paging

end OpenmrnCue.CommandStation
