import OpenmrnCue.Library.Sorted
import Mathlib.Algebra.Order.Ring.Int

/-! The paged list of search results: `TrainNodeInfoCache` of `TrainNodeInfoCache.hxx`.  The cache
keeps a window of the nodes that answered a search, in the order of their IDs, and counts the ones
that fell off the window at the top and at the bottom.  Names of trains and their lookup are left
out. -/

namespace OpenmrnCue.CommandStation

/-- `kMinNode` and `kMaxNode`. -/
def kMinNode : Nat := 0
def kMaxNode : Nat := 0xFFFFFFFFFFFF

/-- `++` and `--` of a `uint16_t`. -/
def inc16 (x : Nat) : Nat := (x + 1) % 2 ^ 16
def dec16 (x : Nat) : Nat := (x + (2 ^ 16 - 1)) % 2 ^ 16

/-- The value that an `int16_t` holds after an assignment. -/
@[irreducible] def toInt16 (x : Int) : Int := (x + 32768) % 65536 - 32768

/-- The limits of the nodes in a list, with those of all nodes for the empty list. -/
def firstOf (nodes : List Nat) : Nat := nodes.head?.getD kMinNode
def lastOf (nodes : List Nat) : Nat := nodes.getLast?.getD kMaxNode

/-- `ResultList`.  `nodes` lists the keys of the map in their order. -/
structure ResultList where
  nodes : List Nat
  resultsClippedAtTop : Nat
  resultsClippedAtBottom : Nat
  resultOffset : Int
  newClippedAtTop : Nat
  newClippedAtBottom : Nat
  previousMinNode : Nat
  previousMaxNode : Nat
deriving DecidableEq, Repr

namespace ResultList

/-- `num_results`. -/
def numResults (list : ResultList) : Nat :=
  list.resultsClippedAtTop + list.resultsClippedAtBottom + list.nodes.length

/-- `reset`. -/
def reset : ResultList where
  nodes := []
  resultsClippedAtTop := 0
  resultsClippedAtBottom := 0
  resultOffset := -1
  newClippedAtTop := 0
  newClippedAtBottom := 0
  previousMinNode := kMinNode
  previousMaxNode := kMaxNode

/-- `min_node` and `max_node`. -/
def minNode (list : ResultList) : Nat := firstOf list.nodes
def maxNode (list : ResultList) : Nat := lastOf list.nodes

/-- `finalize_search`. -/
def finalizeSearch (list : ResultList) : ResultList :=
  { list with
    resultsClippedAtBottom := list.newClippedAtBottom
    resultsClippedAtTop := list.newClippedAtTop }

/-- `clear_to_paginate`. -/
def clearToPaginate (list : ResultList) : ResultList :=
  { list with
    newClippedAtBottom := 0
    newClippedAtTop := 0
    previousMaxNode := list.maxNode
    previousMinNode := list.minNode }

/-- What a list holds, the offset of the display apart: its nodes, the nodes clipped at the top and
at the bottom, the nodes clipped in this search, and the previous clipping region. -/
structure Holds (list : ResultList) (nodes : List Nat) (top bottom newTop newBottom min max : Nat) :
    Prop where
  nodes : list.nodes = nodes
  top : list.resultsClippedAtTop = top
  bottom : list.resultsClippedAtBottom = bottom
  newTop : list.newClippedAtTop = newTop
  newBottom : list.newClippedAtBottom = newBottom
  min : list.previousMinNode = min
  max : list.previousMaxNode = max

theorem Holds.numResults {list : ResultList} {nodes : List Nat}
    {top bottom newTop newBottom min max : Nat}
    (h : list.Holds nodes top bottom newTop newBottom min max) :
    list.numResults = top + bottom + nodes.length := by
  rw [ResultList.numResults, h.top, h.bottom, h.nodes]

theorem Holds.congr {list : ResultList} {nodes : List Nat}
    {top bottom newTop newBottom top' bottom' newTop' newBottom' min max : Nat}
    (h : list.Holds nodes top bottom newTop newBottom min max) (htop : top = top')
    (hbottom : bottom = bottom') (hnewTop : newTop = newTop')
    (hnewBottom : newBottom = newBottom') :
    list.Holds nodes top' bottom' newTop' newBottom' min max := by
  subst htop hbottom hnewTop hnewBottom
  exact h

/-- The display leaves all but the offset of the list alone. -/
theorem Holds.offset {list : ResultList} {nodes : List Nat}
    {top bottom newTop newBottom min max : Nat} {offset : Int}
    (h : list.Holds nodes top bottom newTop newBottom min max) :
    { list with resultOffset := offset }.Holds nodes top bottom newTop newBottom min max :=
  ⟨h.nodes, h.top, h.bottom, h.newTop, h.newBottom, h.min, h.max⟩

theorem reset_holds : reset.Holds [] 0 0 0 0 kMinNode kMaxNode :=
  ⟨rfl, rfl, rfl, rfl, rfl, rfl, rfl⟩

end ResultList

/-- `TrainNodeInfoCache`.  `entries` are the nodes whose names are in the output. -/
structure TrainNodeInfoCache where
  minResult : Nat
  maxResult : Nat
  topNodeId : Nat
  targetNodeId : Nat
  needSearch : Bool
  pendingSearch : Bool
  enablePartialScroll : Bool
  nodesToShow : Nat
  cacheMaxSize : Nat
  scrollPrefetchSize : Nat
  resultsBeforeTarget : Nat
  resultsAfterTarget : Nat
  trainNodes : ResultList
  entries : List Nat
deriving DecidableEq, Repr

namespace TrainNodeInfoCache

/-- The settings of a cache: the number of lines (3 bits), the size of the cache and of the prefetch
(6 bits each), and whether scrolling may leave a partial page. -/
structure Settings where
  nodesToShow : Fin 8
  cacheMaxSize : Fin 64
  scrollPrefetchSize : Fin 64
  enablePartialScroll : Bool
deriving DecidableEq, Repr

/-- The cache with another list. -/
def withTrainNodes (cache : TrainNodeInfoCache) (list : ResultList) : TrainNodeInfoCache :=
  { cache with trainNodes := list }

@[simp] theorem withTrainNodes_trainNodes (cache : TrainNodeInfoCache) (list : ResultList) :
    (cache.withTrainNodes list).trainNodes = list := rfl

@[simp] theorem withTrainNodes_withTrainNodes (cache : TrainNodeInfoCache)
    (list list' : ResultList) :
    (cache.withTrainNodes list).withTrainNodes list' = cache.withTrainNodes list' := rfl

/-- `invoke_search`. -/
def invokeSearch (cache : TrainNodeInfoCache) : TrainNodeInfoCache :=
  { cache with needSearch := true, pendingSearch := true }

/-- `reset_search`, on a cache with these settings.  The bit field of `resultsAfterTarget_` has four
bits. -/
def resetSearch (settings : Settings) : TrainNodeInfoCache :=
  invokeSearch
    { minResult := kMinNode
      maxResult := kMaxNode
      topNodeId := kMinNode
      targetNodeId := kMinNode
      needSearch := false
      pendingSearch := false
      enablePartialScroll := settings.enablePartialScroll
      nodesToShow := settings.nodesToShow
      cacheMaxSize := settings.cacheMaxSize
      scrollPrefetchSize := settings.scrollPrefetchSize
      resultsBeforeTarget := 0
      resultsAfterTarget := (settings.nodesToShow.val + 15) % 2 ^ 4
      trainNodes := ResultList.reset
      entries := [] }

/-- `invoke_paginate`. -/
def invokePaginate (cache : TrainNodeInfoCache) : TrainNodeInfoCache :=
  invokeSearch { cache with trainNodes := cache.trainNodes.finalizeSearch.clearToPaginate }

/-- `scrolling_down`. -/
def scrollingDown (cache : TrainNodeInfoCache) : Bool :=
  if kMaxNode ≤ cache.maxResult then true
  else if cache.minResult ≤ kMinNode then false
  else true

/-- A new node is added to the list when it is between the nodes of the list or between the limits
of the search. -/
def Accepts (cache : TrainNodeInfoCache) (node : Nat) : Prop :=
  (cache.trainNodes.minNode ≤ node ∧ node ≤ cache.trainNodes.maxNode) ∨
    (cache.minResult ≤ node ∧ node ≤ cache.maxResult)

instance (cache : TrainNodeInfoCache) (node : Nat) : Decidable (cache.Accepts node) :=
  inferInstanceAs (Decidable (_ ∨ _))

/-- The part of `add_to_list` for a node that is added. -/
def acceptNode (cache : TrainNodeInfoCache) (node : Nat) : ResultList :=
  let list := cache.trainNodes
  let list := { list with nodes := Sorted.insert node list.nodes }
  let list :=
    if list.previousMaxNode < node then
      { list with resultsClippedAtBottom := dec16 list.resultsClippedAtBottom }
    else list
  if node < list.previousMinNode then
    { list with
      resultsClippedAtTop := dec16 list.resultsClippedAtTop
      resultOffset :=
        if 0 < list.resultOffset then toInt16 (list.resultOffset - 1) else list.resultOffset }
  else if node < cache.topNodeId then
    -- A new node that arrived just now.
    { list with
      resultOffset :=
        if 0 < list.resultOffset then toInt16 (list.resultOffset + 1) else list.resultOffset }
  else list

/-- The part of `add_to_list` for a node that is not added. -/
def rejectNode (cache : TrainNodeInfoCache) (node : Nat) : ResultList :=
  let list := cache.trainNodes
  let list :=
    if node < cache.minResult ∧ node < list.previousMinNode then
      { list with newClippedAtTop := inc16 list.newClippedAtTop }
    else list
  if cache.maxResult < node ∧ list.previousMaxNode < node then
    { list with newClippedAtBottom := inc16 list.newClippedAtBottom }
  else list

/-- The first part of `add_to_list`: a new node is added, or counted as clipped. -/
def addNode (cache : TrainNodeInfoCache) (node : Nat) : ResultList :=
  if cache.Accepts node then cache.acceptNode node else cache.rejectNode node

/-- `clip_at_end`, as a round of the eviction loop computes it. -/
def clipAtEnd (cache : TrainNodeInfoCache) (list : ResultList) : Bool :=
  if list.minNode < cache.minResult then false
  else if cache.maxResult < list.maxNode then true
  else cache.scrollingDown

/-- One round of the eviction loop of `add_to_list`. -/
def evictOne (cache : TrainNodeInfoCache) (list : ResultList) : ResultList :=
  if cache.clipAtEnd list then
    { list with
      nodes := list.nodes.dropLast
      resultsClippedAtBottom := inc16 list.resultsClippedAtBottom
      newClippedAtBottom := inc16 list.newClippedAtBottom }
  else
    { list with
      nodes := list.nodes.tail
      resultsClippedAtTop := inc16 list.resultsClippedAtTop
      newClippedAtTop := inc16 list.newClippedAtTop
      resultOffset :=
        if 0 ≤ list.resultOffset then toInt16 (list.resultOffset + 1) else list.resultOffset }

/-- The eviction loop; each round takes one node, so that there are at most as many rounds as
nodes. -/
def evict (cache : TrainNodeInfoCache) : Nat → ResultList → ResultList
  | 0, list => list
  | rounds + 1, list =>
    if cache.cacheMaxSize < list.nodes.length then evict cache rounds (cache.evictOne list) else list

/-- `add_to_list`. -/
def addToList (cache : TrainNodeInfoCache) (node : Nat) : TrainNodeInfoCache :=
  if node ∈ cache.trainNodes.nodes then cache
  else
    let list := cache.addNode node
    cache.withTrainNodes (cache.evict list.nodes.length list)

/-- `result_callback`. -/
def resultCallback (cache : TrainNodeInfoCache) (node : Nat) : TrainNodeInfoCache :=
  if node = 0 then cache else cache.addToList node

/-- `std::map::lower_bound`: an iterator is the number of nodes before it. -/
def lowerBound (nodes : List Nat) (target : Nat) : Nat := nodes.countP (· < target)

/-- The loop of `try_move_iterator` towards `end()`. -/
def moveForward (size : Nat) : Nat → Nat → Bool × Nat
  | 0, it => (true, it)
  | count + 1, it => if it = size then (false, it) else moveForward size count (it + 1)

/-- The loop of `try_move_iterator` towards `begin()`. -/
def moveBackward : Nat → Nat → Bool × Nat
  | 0, it => (true, it)
  | _ + 1, 0 => (false, 0)
  | count + 1, it + 1 => moveBackward count it

/-- `try_move_iterator`. -/
def tryMoveIterator (size : Nat) : Int → Nat → Bool × Nat
  | .ofNat count, it => moveForward size count it
  | .negSucc count, it => moveBackward (count + 1) it

/-- `it->first`.  What is read through `end()` is not specified; it is taken as a parameter. -/
def nodeAt (endFirst : Nat) (nodes : List Nat) (it : Nat) : Nat := nodes[it]?.getD endFirst

/-- What `update_ui_output` finds on one side of the target: where the page ends, whether it lacks
clipped results, whether the cache has to be refilled, and the limit for a refill of the other
side. -/
structure Side where
  page : Nat
  clipped : Bool
  needRefillCache : Bool
  refillLimit : Nat
deriving DecidableEq, Repr

/-- The part of `update_ui_output` towards the top. -/
def lookTowardsTop (endFirst : Nat) (cache : TrainNodeInfoCache) (it : Nat) : Side :=
  let nodes := cache.trainNodes.nodes
  let clippedAtTop := cache.trainNodes.resultsClippedAtTop != 0
  let (found, itt) := tryMoveIterator nodes.length (-(cache.resultsBeforeTarget : Int)) it
  if !found then ⟨itt, clippedAtTop, clippedAtTop, kMinNode⟩
  else
    let (prefetched, itp) := tryMoveIterator nodes.length (-(cache.scrollPrefetchSize : Int)) itt
    if prefetched then ⟨itt, false, false, nodeAt endFirst nodes itp⟩
    else ⟨itt, false, clippedAtTop, kMinNode⟩

/-- The part of `update_ui_output` towards the bottom. -/
def lookTowardsBottom (endFirst : Nat) (cache : TrainNodeInfoCache) (it : Nat) : Side :=
  let nodes := cache.trainNodes.nodes
  let clippedAtBottom := cache.trainNodes.resultsClippedAtBottom != 0
  let (found, itb) := tryMoveIterator nodes.length (cache.resultsAfterTarget + 1 : Nat) it
  if !found then ⟨itb, clippedAtBottom, clippedAtBottom, kMaxNode⟩
  else
    let (prefetched, itp) := tryMoveIterator nodes.length (cache.scrollPrefetchSize : Nat) itb
    if prefetched then ⟨itb, false, false, nodeAt endFirst nodes (itp - 1)⟩
    else ⟨itb, false, clippedAtBottom, kMaxNode⟩

/-- The offset that `find_selection_offset` computes. -/
def selectionOffset (cache : TrainNodeInfoCache) : Int :=
  let list := cache.trainNodes
  toInt16 (list.resultsClippedAtTop + (list.nodes.takeWhile (· < cache.topNodeId)).length : Nat)

/-- The cache with another offset of the display. -/
def withOffset (cache : TrainNodeInfoCache) (offset : Int) : TrainNodeInfoCache :=
  { cache with trainNodes := { cache.trainNodes with resultOffset := offset } }

/-- `find_selection_offset`. -/
def findSelectionOffset (cache : TrainNodeInfoCache) : TrainNodeInfoCache :=
  cache.withOffset cache.selectionOffset

/-- `flags`, `refill_min_node` and `refill_max_node` of `update_ui_output`. -/
structure UiOutput where
  clippedAtTop : Bool
  clippedAtBottom : Bool
  needRefillCache : Bool
  targetNotFound : Bool
  refillMinNode : Nat
  refillMaxNode : Nat
deriving DecidableEq, Repr

/-- `update_ui_output`: the cache. -/
def updateUiOutput (endFirst : Nat) (cache : TrainNodeInfoCache) : TrainNodeInfoCache :=
  let nodes := cache.trainNodes.nodes
  let it := lowerBound nodes cache.targetNodeId
  let itt := (cache.lookTowardsTop endFirst it).page
  let itb := (cache.lookTowardsBottom endFirst it).page
  let cache := findSelectionOffset { cache with topNodeId := nodes[itt]?.getD 0 }
  { cache with entries := (nodes.take itb).drop itt }

/-- `update_ui_output`: the results. -/
def uiOutput (endFirst : Nat) (cache : TrainNodeInfoCache) : UiOutput :=
  let nodes := cache.trainNodes.nodes
  let it := lowerBound nodes cache.targetNodeId
  let top := cache.lookTowardsTop endFirst it
  let bottom := cache.lookTowardsBottom endFirst it
  { clippedAtTop := top.clipped
    clippedAtBottom := bottom.clipped
    needRefillCache := top.needRefillCache || bottom.needRefillCache
    targetNotFound := nodes[it]? != some cache.targetNodeId
    refillMinNode := top.refillLimit
    refillMaxNode := bottom.refillLimit }

/-- The first lines of `scroll_to`; the bit fields have four bits. -/
def setTarget (cache : TrainNodeInfoCache) (target numBefore numAfter : Nat) :
    TrainNodeInfoCache :=
  { cache with
    targetNodeId := target
    resultsBeforeTarget := numBefore % 2 ^ 4
    resultsAfterTarget := numAfter % 2 ^ 4 }

section setTarget

variable (cache : TrainNodeInfoCache) (target numBefore numAfter : Nat)

@[simp] theorem setTarget_targetNodeId :
    (cache.setTarget target numBefore numAfter).targetNodeId = target := rfl

@[simp] theorem setTarget_resultsBeforeTarget :
    (cache.setTarget target numBefore numAfter).resultsBeforeTarget = numBefore % 2 ^ 4 := rfl

@[simp] theorem setTarget_resultsAfterTarget :
    (cache.setTarget target numBefore numAfter).resultsAfterTarget = numAfter % 2 ^ 4 := rfl

@[simp] theorem setTarget_scrollPrefetchSize :
    (cache.setTarget target numBefore numAfter).scrollPrefetchSize = cache.scrollPrefetchSize := rfl

end setTarget

/-- The cache with these limits for the next search. -/
def withLimits (cache : TrainNodeInfoCache) (minResult maxResult : Nat) : TrainNodeInfoCache :=
  { cache with minResult, maxResult }

/-- `scroll_to`: the cache. -/
def scrollTo (endFirst : Nat) (cache : TrainNodeInfoCache) (target numBefore numAfter : Nat) :
    TrainNodeInfoCache :=
  let cache := cache.setTarget target numBefore numAfter
  let output := cache.uiOutput endFirst
  let cache := cache.updateUiOutput endFirst
  if output.needRefillCache ∧ cache.pendingSearch = false then
    invokePaginate (cache.withLimits output.refillMinNode output.refillMaxNode)
  else cache

/-- `nodesToShow_ - 1` as a `uint16_t`. -/
def pageAfterTop (cache : TrainNodeInfoCache) : Nat := (cache.nodesToShow + (2 ^ 16 - 1)) % 2 ^ 16

/-- The number of nodes that `scroll_down` wants behind the next one. -/
def scrollLines (cache : TrainNodeInfoCache) : Nat :=
  if cache.enablePartialScroll then 1 else cache.nodesToShow

/-- The node that `scroll_down` scrolls to, if there are enough nodes. -/
def downTarget (endFirst : Nat) (cache : TrainNodeInfoCache) : Option Nat :=
  let nodes := cache.trainNodes.nodes
  let (moved, it) := tryMoveIterator nodes.length 1 (lowerBound nodes cache.topNodeId)
  if !moved then none
  else
    if (tryMoveIterator nodes.length (cache.scrollLines : Nat) it).1 then
      some (nodeAt endFirst nodes it)
    else none

/-- `scroll_down`. -/
def scrollDown (endFirst : Nat) (cache : TrainNodeInfoCache) : Bool × TrainNodeInfoCache :=
  match cache.downTarget endFirst with
  | none => (false, cache)
  | some id => (true, cache.scrollTo endFirst id 0 cache.pageAfterTop)

/-- The node that `scroll_up` scrolls to, if there is one. -/
def upTarget (endFirst : Nat) (cache : TrainNodeInfoCache) : Option Nat :=
  let nodes := cache.trainNodes.nodes
  let (moved, it) := tryMoveIterator nodes.length (-1) (lowerBound nodes cache.topNodeId)
  if moved then some (nodeAt endFirst nodes it) else none

/-- `scroll_up`. -/
def scrollUp (endFirst : Nat) (cache : TrainNodeInfoCache) : Bool × TrainNodeInfoCache :=
  match cache.upTarget endFirst with
  | none => (false, cache)
  | some id => (true, cache.scrollTo endFirst id 0 cache.pageAfterTop)

/-- `send_search_request`. -/
def sendSearchRequest (cache : TrainNodeInfoCache) : TrainNodeInfoCache :=
  { cache with needSearch := false }

/-- `search_done`. -/
def searchDone (endFirst : Nat) (cache : TrainNodeInfoCache) : TrainNodeInfoCache :=
  let cache := cache.findSelectionOffset.updateUiOutput endFirst
  if cache.needSearch then cache.sendSearchRequest else { cache with pendingSearch := false }

/-- `iter_done`. -/
def iterDone (endFirst : Nat) (cache : TrainNodeInfoCache) : TrainNodeInfoCache :=
  let cache := cache.findSelectionOffset.updateUiOutput endFirst
  if cache.needSearch then cache.sendSearchRequest else cache

/-- `num_results`. -/
def numResults (cache : TrainNodeInfoCache) : Nat := cache.trainNodes.numResults

/-- `first_result_offset`: the `int16_t` as an `unsigned`. -/
def firstResultOffset (cache : TrainNodeInfoCache) : Nat :=
  (cache.trainNodes.resultOffset % 2 ^ 32).toNat

/-- An `unsigned` as an `int`. -/
@[irreducible] def toInt32 (x : Nat) : Int :=
  if x % 2 ^ 32 < 2 ^ 31 then (x % 2 ^ 32 : Nat) else (x % 2 ^ 32 : Nat) - (2 ^ 32 : Nat)

/-- `get_result_id`.  The name in a line of the output is that of the node in this line. -/
def getResultId (endFirst : Nat) (cache : TrainNodeInfoCache) (offset : Nat) : Nat :=
  let nodes := cache.trainNodes.nodes
  let (moved, it) :=
    tryMoveIterator nodes.length (toInt32 offset) (lowerBound nodes cache.topNodeId)
  if !moved then 0
  else if offset < cache.entries.length ∧ nodes[it]? = cache.entries[offset]? then
    nodeAt endFirst nodes it
  else 0

/-- `scroll_to`: the flags that it returns. -/
def scrollFlags (endFirst : Nat) (cache : TrainNodeInfoCache) (target numBefore numAfter : Nat) :
    UiOutput :=
  (cache.setTarget target numBefore numAfter).uiOutput endFirst

section addToList

variable {cache : TrainNodeInfoCache} {list : ResultList} {nodes : List Nat} {node : Nat}
  {top bottom newTop newBottom min max : Nat}

theorem addNode_accepted (h : cache.trainNodes.Holds nodes top bottom newTop newBottom min max)
    (haccepts : cache.Accepts node) :
    (cache.addNode node).Holds (Sorted.insert node nodes) (if node < min then dec16 top else top)
      (if max < node then dec16 bottom else bottom) newTop newBottom min max := by
  obtain ⟨rfl, rfl, rfl, rfl, rfl, rfl, rfl⟩ := h
  rw [addNode, if_pos haccepts]
  unfold acceptNode
  dsimp only
  by_cases hmax : cache.trainNodes.previousMaxNode < node
  · simp only [hmax, if_true]
    split
    · constructor <;> rfl
    · split <;> constructor <;> rfl
  · simp only [hmax, if_false]
    split
    · constructor <;> rfl
    · split <;> constructor <;> rfl

theorem addNode_rejected (h : cache.trainNodes.Holds nodes top bottom newTop newBottom min max)
    (haccepts : ¬ cache.Accepts node) :
    (cache.addNode node).Holds nodes top bottom
      (if node < cache.minResult ∧ node < min then inc16 newTop else newTop)
      (if cache.maxResult < node ∧ max < node then inc16 newBottom else newBottom) min max := by
  obtain ⟨rfl, rfl, rfl, rfl, rfl, rfl, rfl⟩ := h
  rw [addNode, if_neg haccepts]
  unfold rejectNode
  dsimp only
  by_cases hmin : node < cache.minResult ∧ node < cache.trainNodes.previousMinNode
  · simp only [hmin, and_self, if_true]
    split <;> constructor <;> rfl
  · simp only [hmin, if_false]
    split <;> constructor <;> rfl

theorem evictOne_atEnd (h : list.Holds nodes top bottom newTop newBottom min max)
    (hclip : cache.clipAtEnd list = true) :
    (cache.evictOne list).Holds nodes.dropLast top (inc16 bottom) newTop (inc16 newBottom) min
      max := by
  obtain ⟨rfl, rfl, rfl, rfl, rfl, rfl, rfl⟩ := h
  rw [evictOne, if_pos hclip]
  constructor <;> rfl

theorem evictOne_atTop (h : list.Holds nodes top bottom newTop newBottom min max)
    (hclip : cache.clipAtEnd list = false) :
    (cache.evictOne list).Holds nodes.tail (inc16 top) bottom (inc16 newTop) newBottom min max := by
  obtain ⟨rfl, rfl, rfl, rfl, rfl, rfl, rfl⟩ := h
  rw [evictOne, if_neg (by simp [hclip])]
  constructor <;> rfl

theorem evictOne_length : (cache.evictOne list).nodes.length = list.nodes.length - 1 := by
  unfold evictOne
  split <;> simp

theorem evict_of_fits {rounds : Nat} (h : list.nodes.length ≤ cache.cacheMaxSize) :
    cache.evict rounds list = list := by
  cases rounds with
  | zero => rfl
  | succ rounds => rw [evict, if_neg (Nat.not_lt.mpr h)]

theorem evict_of_one_more (h : list.nodes.length = cache.cacheMaxSize + 1) :
    cache.evict list.nodes.length list = cache.evictOne list := by
  conv => lhs; rw [h, evict, if_pos (by omega)]
  exact evict_of_fits (by rw [evictOne_length]; omega)

/-- What changes in a cache when a reply arrives. -/
theorem resultCallback_trainNodes (hzero : node ≠ 0) (hnew : node ∉ cache.trainNodes.nodes) :
    cache.resultCallback node =
      cache.withTrainNodes
        (cache.evict (cache.addNode node).nodes.length (cache.addNode node)) := by
  rw [resultCallback, if_neg hzero, addToList, if_neg hnew]

/-- A reply from a node of the list changes nothing. -/
theorem resultCallback_known (h : node ∈ cache.trainNodes.nodes) :
    cache.resultCallback node = cache := by
  rw [resultCallback, addToList, if_pos h, ite_self]

/-- A node that is not accepted is counted, and the list stays as it is. -/
theorem resultCallback_rejected
    (h : cache.trainNodes.Holds nodes top bottom newTop newBottom min max)
    (hfits : nodes.length ≤ cache.cacheMaxSize) (hzero : node ≠ 0) (hnew : node ∉ nodes)
    (haccepts : ¬ cache.Accepts node) :
    ∃ list, cache.resultCallback node = cache.withTrainNodes list ∧
      list.Holds nodes top bottom
        (if node < cache.minResult ∧ node < min then inc16 newTop else newTop)
        (if cache.maxResult < node ∧ max < node then inc16 newBottom else newBottom) min max := by
  have hadd := addNode_rejected h haccepts
  refine ⟨_, resultCallback_trainNodes hzero (h.nodes ▸ hnew), ?_⟩
  rw [evict_of_fits (by rw [hadd.nodes]; exact hfits)]
  exact hadd

/-- An accepted node goes to the list while there is room. -/
theorem resultCallback_added
    (h : cache.trainNodes.Holds nodes top bottom newTop newBottom min max)
    (hroom : nodes.length < cache.cacheMaxSize) (hzero : node ≠ 0) (hnew : node ∉ nodes)
    (haccepts : cache.Accepts node) :
    ∃ list, cache.resultCallback node = cache.withTrainNodes list ∧
      list.Holds (Sorted.insert node nodes) (if node < min then dec16 top else top)
        (if max < node then dec16 bottom else bottom) newTop newBottom min max := by
  have hadd := addNode_accepted h haccepts
  refine ⟨_, resultCallback_trainNodes hzero (h.nodes ▸ hnew), ?_⟩
  rw [evict_of_fits (by rw [hadd.nodes, Sorted.length_insert]; exact hroom)]
  exact hadd

/-- An accepted node pushes the last node out of a full list. -/
theorem resultCallback_pushesLast
    (h : cache.trainNodes.Holds nodes top bottom newTop newBottom min max)
    (hfull : nodes.length = cache.cacheMaxSize) (hzero : node ≠ 0) (hnew : node ∉ nodes)
    (haccepts : cache.Accepts node)
    (hmin : cache.minResult ≤ firstOf (Sorted.insert node nodes))
    (hmax : cache.maxResult < lastOf (Sorted.insert node nodes) ∨ cache.scrollingDown) :
    ∃ list, cache.resultCallback node = cache.withTrainNodes list ∧
      list.Holds (Sorted.insert node nodes).dropLast (if node < min then dec16 top else top)
        (inc16 (if max < node then dec16 bottom else bottom)) newTop (inc16 newBottom) min max := by
  have hadd := addNode_accepted h haccepts
  refine ⟨_, resultCallback_trainNodes hzero (h.nodes ▸ hnew), ?_⟩
  rw [evict_of_one_more (by rw [hadd.nodes, Sorted.length_insert, hfull])]
  refine evictOne_atEnd hadd ?_
  rw [clipAtEnd, ResultList.minNode, ResultList.maxNode, hadd.nodes,
    if_neg (Nat.not_lt.mpr hmin)]
  split
  · rfl
  next hlast => exact hmax.resolve_left hlast

/-- An accepted node pushes the first node out of a full list. -/
theorem resultCallback_pushesFirst
    (h : cache.trainNodes.Holds nodes top bottom newTop newBottom min max)
    (hfull : nodes.length = cache.cacheMaxSize) (hzero : node ≠ 0) (hnew : node ∉ nodes)
    (haccepts : cache.Accepts node)
    (hmin : firstOf (Sorted.insert node nodes) < cache.minResult ∨
      lastOf (Sorted.insert node nodes) ≤ cache.maxResult ∧ cache.scrollingDown = false) :
    ∃ list, cache.resultCallback node = cache.withTrainNodes list ∧
      list.Holds (Sorted.insert node nodes).tail (inc16 (if node < min then dec16 top else top))
        (if max < node then dec16 bottom else bottom) (inc16 newTop) newBottom min max := by
  have hadd := addNode_accepted h haccepts
  refine ⟨_, resultCallback_trainNodes hzero (h.nodes ▸ hnew), ?_⟩
  rw [evict_of_one_more (by rw [hadd.nodes, Sorted.length_insert, hfull])]
  refine evictOne_atTop hadd ?_
  rw [clipAtEnd, ResultList.minNode, ResultList.maxNode, hadd.nodes]
  split
  · rfl
  next hfirst =>
    obtain ⟨hlast, hup⟩ := hmin.resolve_left hfirst
    rw [if_neg (Nat.not_lt.mpr hlast), hup]

end addToList

end TrainNodeInfoCache

end OpenmrnCue.CommandStation
