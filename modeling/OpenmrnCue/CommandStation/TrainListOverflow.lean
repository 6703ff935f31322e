import Mathlib.Order.Interval.Finset.Nat
import OpenmrnCue.CommandStation.TrainListPaging

/-! Paging down a long train list.  Each search that is answered by all nodes completes and moves
the list by as many nodes as scrolling asks for, so that every node can be reached; the offset of
the display leaves the range of an `int16_t` on the way. -/

namespace OpenmrnCue.CommandStation

open TrainNodeInfoCache

namespace Paging

section complete

variable {nodes : Finset Nat} {endFirst : Nat} {cache : TrainNodeInfoCache}
  {answered replies : List Nat} {I : List Nat → TrainNodeInfoCache → Prop}

/-- Nodes that have not answered can answer, and what every reply preserves holds after them. -/
theorem run_replies (endFirst : Nat) {replies : List Nat}
    (hreply : ∀ answered cache node, I answered cache → node ∈ nodes → node ∉ answered →
      ∃ list, cache.resultCallback node = cache.withTrainNodes list ∧
        I (answered ++ [node]) (cache.withTrainNodes list))
    (hnodup : replies.Nodup) (hmem : ∀ node ∈ replies, node ∈ nodes)
    (hnew : ∀ node ∈ replies, node ∉ answered) (hpending : cache.pendingSearch = true)
    (hI : I answered cache) :
    ∃ list, Trace.run (step endFirst nodes) ⟨cache, answered⟩ (replies.map .reply) =
        some ⟨cache.withTrainNodes list, answered ++ replies⟩ ∧
      I (answered ++ replies) (cache.withTrainNodes list) := by
  induction replies generalizing cache answered with
  | nil =>
    refine ⟨cache.trainNodes, by simp [withTrainNodes], ?_⟩
    rw [List.append_nil]
    exact hI
  | cons node replies ih =>
    obtain ⟨hnode, hnodup⟩ := List.nodup_cons.mp hnodup
    have hfresh := hnew node (by simp)
    obtain ⟨list, heq, hI'⟩ := hreply answered cache node hI (hmem node (by simp)) hfresh
    have hnew' : ∀ other ∈ replies, other ∉ answered ++ [node] := by
      intro other hother hmem'
      rcases List.mem_append.mp hmem' with hbefore | hlast
      · exact hnew other (by simp [hother]) hbefore
      · exact hnode (List.mem_singleton.mp hlast ▸ hother)
    have hpending' : (cache.withTrainNodes list).pendingSearch = true := hpending
    obtain ⟨list', hrun, hI''⟩ := ih hnodup (fun other hother => hmem other (by simp [hother]))
      hnew' hpending' hI'
    refine ⟨list', ?_, by simpa using hI''⟩
    have hstep : step endFirst nodes ⟨cache, answered⟩ (.reply node) =
        some ⟨cache.withTrainNodes list, answered ++ [node]⟩ := by
      rw [step, if_pos ⟨hpending, hmem node (by simp), hfresh⟩, heq]
    rw [List.map_cons, Trace.run_cons, hstep, Option.bind_some, hrun]
    simp

/-- A search that all nodes answer completes. -/
theorem search_completes (endFirst : Nat) (cache : TrainNodeInfoCache)
    (hreply : ∀ answered cache node, I answered cache → node ∈ nodes → node ∉ answered →
      ∃ list, cache.resultCallback node = cache.withTrainNodes list ∧
        I (answered ++ [node]) (cache.withTrainNodes list))
    (hpending : cache.pendingSearch = true) (hI : I [] cache) :
    ∃ list history, Trace.run (step endFirst nodes) ⟨cache, []⟩ history =
        some ⟨(cache.withTrainNodes list).searchDone endFirst, nodes.sort⟩ ∧
      I nodes.sort (cache.withTrainNodes list) := by
  obtain ⟨list, hrun, hI'⟩ := run_replies endFirst hreply (nodes.sort_nodup (· ≤ ·))
    (fun node hnode => (Finset.mem_sort _).mp hnode) (by simp) hpending hI
  rw [List.nil_append] at hrun hI'
  refine ⟨list, nodes.sort.map .reply ++ [.searchDone], ?_, hI'⟩
  rw [Trace.run_concat, hrun, Option.bind_some, step,
    if_pos ⟨hpending, fun node hnode => (Finset.mem_sort _).mpr hnode⟩]

end complete

/-- A list between two calls, with the default sizes. -/
structure Resting (paging : Paging) : Prop where
  pendingSearch : paging.cache.pendingSearch = false
  needSearch : paging.cache.needSearch = false
  cacheMaxSize : paging.cache.cacheMaxSize = 48
  scrollPrefetchSize : paging.cache.scrollPrefetchSize = 16

section refresh

variable {nodes : Finset Nat} {endFirst : Nat} {cache : TrainNodeInfoCache}
  {above window below answered : List Nat}

/-- The list after `search_done`. -/
theorem resting_searchDone (endFirst : Nat) (answered : List Nat) (cache : TrainNodeInfoCache)
    (hneed : cache.needSearch = false) (hsize : cache.cacheMaxSize = 48)
    (hprefetch : cache.scrollPrefetchSize = 16)
    (hsettled : Settled nodes.sort above window below cache) :
    Resting ⟨cache.searchDone endFirst, answered⟩ ∧
      Settled nodes.sort above window below (cache.searchDone endFirst) := by
  rw [searchDone, findSelectionOffset]
  generalize cache.selectionOffset = offset
  have hsame := sameList_refresh cache offset endFirst
  obtain ⟨hflag, -⟩ := withOffset_flags endFirst cache offset
  generalize (cache.withOffset offset).updateUiOutput endFirst = cache' at *
  rw [if_neg (by rw [hflag, hneed]; simp)]
  exact ⟨⟨rfl, hflag.trans hneed, hsame.cacheMaxSize.trans hsize,
    hsame.scrollPrefetchSize.trans hprefetch⟩, hsettled.congr hsame.cacheMaxSize hsame.trainNodes⟩

theorem toInt16_overflow {offset : Nat} (hlow : 2 ^ 15 ≤ offset) (hhigh : offset < 2 ^ 16) :
    (toInt16 offset % 2 ^ 32).toNat ≠ offset := by
  rw [toInt16]
  omega

/-- What is displayed after `search_done`. -/
theorem refresh_display (endFirst : Nat) {first : Nat} (offset : Int)
    (hsettled : Settled nodes.sort above window below cache)
    (hfirst : window[lowerBound window cache.targetNodeId - cache.resultsBeforeTarget]? =
      some first) :
    ((cache.withOffset offset).updateUiOutput endFirst).entries.head? = some first ∧
      ((cache.withOffset offset).updateUiOutput endFirst).trainNodes.resultOffset =
        toInt16 (nodes.filter (· < first)).card := by
  have hsettled' := (sameList_withOffset cache offset).settled hsettled
  obtain ⟨min, max, hlist⟩ := hsettled'.list
  exact ⟨(head?_entries endFirst hlist.nodes).trans hfirst,
    resultOffset_updateUiOutput hsettled' hfirst⟩

/-- An offset from `2 ^ 15` on is not what is displayed. -/
theorem not_displayed_searchDone (first : Nat) (hneed : cache.needSearch = false)
    (hsettled : Settled nodes.sort above window below cache)
    (hfirst : window[lowerBound window cache.targetNodeId - cache.resultsBeforeTarget]? =
      some first)
    (hlow : 2 ^ 15 ≤ (nodes.filter (· < first)).card)
    (hhigh : (nodes.filter (· < first)).card < 2 ^ 16) :
    ¬ Displayed nodes (cache.searchDone endFirst) := by
  rw [searchDone, findSelectionOffset]
  obtain ⟨hflag, -⟩ := withOffset_flags endFirst cache cache.selectionOffset
  obtain ⟨hentries, hstored⟩ := refresh_display endFirst cache.selectionOffset
    hsettled hfirst
  generalize (cache.withOffset cache.selectionOffset).updateUiOutput endFirst = cache' at *
  rw [if_neg (by rw [hflag, hneed]; simp)]
  intro hdisplayed
  have hoffset := hdisplayed first hentries
  simp only [firstResultOffset, hstored] at hoffset
  exact toInt16_overflow hlow hhigh hoffset

end refresh

theorem lowerBound_getElem {window : List Nat} {index node : Nat}
    (hwindow : window.Pairwise (· < ·)) (hnode : window[index]? = some node) :
    lowerBound window node = index := by
  rw [lowerBound, List.countP_eq_length_filter]
  exact Sorted.length_filter_lt hwindow hnode

section slide

variable {nodes : Finset Nat} {endFirst : Nat} {paging : Paging} {above window below : List Nat}

/-- The last node of a full list, as a target without lines above and below it, moves the list by 31
nodes.  That node is displayed first then. -/
theorem slides (endFirst : Nat) (hids : ∀ node ∈ nodes, IsNodeId node) (hfew : nodes.card < 2 ^ 16)
    (hresting : Resting paging) (hsettled : Settled nodes.sort above window below paging.cache)
    (hbelow : 31 ≤ below.length) :
    ∃ history paging' above' window' below',
      Trace.run (step endFirst nodes) paging history = some paging' ∧ Resting paging' ∧
      Settled nodes.sort above' window' below' paging'.cache ∧
      above'.length = above.length + 31 ∧
      (2 ^ 15 ≤ above.length + 47 → ¬ Displayed nodes paging'.cache) := by
  have hfull : window.length = 48 :=
    (hsettled.full (.inr (by omega))).trans hresting.cacheMaxSize
  have hlayout : Layout above window below := hsettled.layout (ascending_sort nodes)
    (fun node hnode => hids node ((Finset.mem_sort _).mp hnode))
    (by rw [Finset.length_sort]; exact hfew) (List.ne_nil_of_length_pos (by omega))
  obtain ⟨target, htarget⟩ : ∃ target, window[47]? = some target :=
    ⟨_, List.getElem?_eq_getElem (by omega)⟩
  have hit := lowerBound_getElem hlayout.window_ascending htarget
  -- The call starts a search downwards.
  have hpage : PageFits paging.cache 0 0 := by
    rw [PageFits, hresting.scrollPrefetchSize, hresting.cacheMaxSize]
    omega
  have hend : ¬ ReadsEnd paging.cache target 0 := fun hend => by
    have hzero := hend.1
    rw [hresting.scrollPrefetchSize] at hzero
    omega
  obtain ⟨-, hdisplay⟩ | ⟨minResult, maxResult, heq, hsearch⟩ :=
    scrollTo_cases endFirst hsettled hresting.pendingSearch hpage hend
  · rw [hit, hresting.scrollPrefetchSize] at hdisplay
    omega
  obtain hdown | ⟨hroom, -⟩ := hsearch
  swap
  · rw [hit, hresting.scrollPrefetchSize] at hroom
    omega
  rw [hit, hresting.scrollPrefetchSize, heq] at hdown
  obtain ⟨list, history, hrun, hdown'⟩ := search_completes endFirst _
    (I := Downwards above window below 31)
    (fun answered cache node h hnode hnew => h.resultCallback hlayout
      (hsettled.parts ▸ (Finset.mem_sort _).mpr hnode) hnew) rfl hdown
  have hstep : step endFirst nodes paging (.scrollTo target 0 0) =
      some (sendPending (paging.cache.scrollTo endFirst target 0 0) paging.answered) := by
    rw [step, if_pos ⟨hresting.pendingSearch, hpage⟩]
  have hfields : ∀ cache, cache = (((paging.cache.setTarget target 0 0).updateUiOutput
      endFirst).withLimits minResult maxResult).invokePaginate.sendSearchRequest.withTrainNodes
      list → cache.needSearch = false ∧ cache.cacheMaxSize = 48 ∧ cache.scrollPrefetchSize = 16 ∧
      cache.targetNodeId = target ∧ cache.resultsBeforeTarget = 0 := by
    rintro _ rfl
    exact ⟨rfl, hresting.cacheMaxSize, hresting.scrollPrefetchSize, rfl, rfl⟩
  generalize (((paging.cache.setTarget target 0 0).updateUiOutput endFirst).withLimits minResult
    maxResult).invokePaginate.sendSearchRequest.withTrainNodes list = cache at *
  obtain ⟨hneed, hsize, hprefetch, hcacheTarget, hbefore⟩ := hfields cache rfl
  have hsettled' := hdown'.settled hlayout fun node => by rw [hsettled.parts]
  rw [← hsettled.parts, Nat.min_eq_right hbelow] at hsettled'
  obtain ⟨hresting', hfinal⟩ := resting_searchDone endFirst nodes.sort cache
    hneed hsize hprefetch hsettled'
  have habove : (above ++ window.take 31).length = above.length + 31 := by
    rw [List.length_append, List.length_take]
    omega
  refine ⟨.scrollTo target 0 0 :: history, _, _, _, _, ?_, hresting', hfinal, habove, ?_⟩
  · rw [Trace.run_cons, hstep, Option.bind_some, heq]
    exact hrun
  intro hlow
  have hlayout' := hsettled'.layout (ascending_sort nodes)
    (fun node hnode => hids node ((Finset.mem_sort _).mp hnode))
    (by rw [Finset.length_sort]; exact hfew)
    (List.ne_nil_of_length_pos (by rw [downwards_length (by omega)]; omega))
  have hget : (downwards 31 window below)[16]? = some target := by
    rw [downwards, Nat.min_eq_right hbelow, List.getElem?_append_left (by rw [List.length_drop]; omega),
      List.getElem?_drop, htarget]
  have hcard := card_filter_lt hsettled'.parts hget
  rw [habove] at hcard
  have hmax : (nodes.filter (· < target)).card ≤ nodes.card := Finset.card_filter_le _ _
  refine not_displayed_searchDone target hneed hsettled' ?_ (by omega) (by omega)
  rw [hcacheTarget, hbefore, lowerBound_getElem hlayout'.window_ascending hget]
  exact hget

theorem below_length (hresting : Resting paging)
    (hsettled : Settled nodes.sort above window below paging.cache)
    (hcard : above.length + 79 ≤ nodes.card) : 31 ≤ below.length := by
  have hfull := hsettled.size
  have hlength := congrArg List.length hsettled.parts
  rw [hresting.cacheMaxSize, Finset.length_sort] at hfull
  rw [Finset.length_sort, List.length_append, List.length_append] at hlength
  omega

/-- Any number of such moves. -/
theorem reaches (endFirst : Nat) (hids : ∀ node ∈ nodes, IsNodeId node)
    (hfew : nodes.card < 2 ^ 16) (moves : Nat) (hcard : 31 * moves + 48 ≤ nodes.card) :
    ∃ history paging above window below,
      Trace.run (step endFirst nodes) (start ⟨3, 48, 16, false⟩) history = some paging ∧
      Resting paging ∧ Settled nodes.sort above window below paging.cache ∧
      above.length = 31 * moves := by
  induction moves with
  | zero =>
    have hfirst := firstSearch_resetSearch ⟨3, 48, 16, false⟩
    obtain ⟨list, history, hrun, hsearch⟩ := search_completes endFirst
      (resetSearch ⟨3, 48, 16, false⟩).sendSearchRequest
      (I := fun answered cache => cache.FirstSearch answered)
      (fun answered cache node h hnode _ => h.resultCallback (hids node hnode)) rfl
      ⟨hfirst.minResult, hfirst.maxResult, hfirst.list⟩
    have hsettled := hsearch.settled (Finset.sort_nodup _ _)
      (Sorted.collect_eq (ascending_sort nodes) fun _ => Iff.rfl)
      (by rw [Finset.length_sort]; exact hfew)
    obtain ⟨hresting, hfinal⟩ := resting_searchDone endFirst nodes.sort
      ((resetSearch ⟨3, 48, 16, false⟩).sendSearchRequest.withTrainNodes list)
      rfl rfl rfl hsettled
    exact ⟨history, _, _, _, _, hrun, hresting, hfinal, rfl⟩
  | succ moves ih =>
    obtain ⟨history, paging, above, window, below, hrun, hresting, hsettled, habove⟩ :=
      ih (by omega)
    have hbelow := below_length hresting hsettled (by omega)
    obtain ⟨history', paging', above', window', below', hrun', hresting', hsettled', habove', -⟩ :=
      slides endFirst hids hfew hresting hsettled hbelow
    refine ⟨history ++ history', paging', above', window', below', ?_, hresting', hsettled',
      by omega⟩
    rw [Trace.run_append, hrun, Option.bind_some, hrun']

end slide

/-- With 40000 nodes the offset of the display overflows on the way down. -/
theorem offset_overflows :
    (∀ node ∈ Finset.Icc 1 40000, IsNodeId node) ∧ (Finset.Icc 1 40000).card < 2 ^ 16 ∧
      ∃ history paging,
        Trace.run (step 0 (Finset.Icc 1 40000)) (start ⟨3, 48, 16, false⟩) history = some paging ∧
          paging.cache.pendingSearch = false ∧
          ¬ Bookkept (Finset.Icc 1 40000) paging.cache := by
  have hids : ∀ node ∈ Finset.Icc 1 40000, IsNodeId node := by
    intro node hnode
    rw [Finset.mem_Icc] at hnode
    exact ⟨by omega, by rw [kMaxNode]; omega⟩
  have hcard : (Finset.Icc 1 40000).card = 40000 := Nat.card_Icc 1 40000
  have hfew : (Finset.Icc 1 40000).card < 2 ^ 16 := by omega
  obtain ⟨history, paging, above, window, below, hrun, hresting, hsettled, habove⟩ :=
    reaches 0 hids hfew 1056 (by omega)
  have hbelow := below_length hresting hsettled (by omega)
  obtain ⟨history', paging', _, _, _, hrun', hresting', -, -, hwrong⟩ :=
    slides 0 hids hfew hresting hsettled hbelow
  refine ⟨hids, hfew, history ++ history', paging', ?_, hresting'.pendingSearch, ?_⟩
  · rw [Trace.run_append, hrun, Option.bind_some, hrun']
  · exact fun hbookkept => hwrong (by omega) hbookkept.offset

end Paging

end OpenmrnCue.CommandStation
