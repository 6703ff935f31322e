import OpenmrnCue.CommandStation.TrainNodeInfoCache

/-! The replies to the first search of a train list.  The list keeps the smallest nodes that
answered, and it counts the rest.  A node that answers again is recognised while it is in the list;
a node that has been clipped from it is counted again. -/

namespace OpenmrnCue.CommandStation

namespace TrainNodeInfoCache

/-- The IDs that a node can have. -/
def IsNodeId (node : Nat) : Prop := node ≠ 0 ∧ node ≤ kMaxNode

/-- A cache after the replies of these nodes. -/
def deliver (cache : TrainNodeInfoCache) (replies : List Nat) : TrainNodeInfoCache :=
  replies.foldl resultCallback cache

/-- The replies without the ones of nodes that have replied before. -/
def withoutRepetitions (replies : List Nat) : List Nat :=
  replies.foldl (fun seen node => if node ∈ seen then seen else seen ++ [node]) []

/-- The number of distinct nodes below `node` that have replied. -/
def smallerReplies (before : List Nat) (node : Nat) : Nat :=
  (before.toFinset.filter (· < node)).card

/-- The number of replies that repeat one of a node that `size` smaller nodes have pushed out of the
list; `before` are the earlier replies. -/
def clippedRepetitions (size : Nat) (before : List Nat) : List Nat → Nat
  | [] => 0
  | node :: rest =>
    (if node ∈ before ∧ size ≤ smallerReplies before node then 1 else 0) +
      clippedRepetitions size (before ++ [node]) rest

theorem clippedRepetitions_concat (size : Nat) (before replies : List Nat) (node : Nat) :
    clippedRepetitions size before (replies ++ [node]) = clippedRepetitions size before replies +
      if node ∈ before ++ replies ∧ size ≤ smallerReplies (before ++ replies) node then 1
      else 0 := by
  induction replies generalizing before with
  | nil => simp [clippedRepetitions]
  | cons first replies ih =>
    rw [List.cons_append, clippedRepetitions, ih, clippedRepetitions, Nat.add_assoc]
    simp

theorem clippedRepetitions_eq_zero {size : Nat} {replies : List Nat} (h : replies.Nodup) :
    clippedRepetitions size [] replies = 0 := by
  induction replies using List.reverseRecOn with
  | nil => rfl
  | append_singleton replies node ih =>
    obtain ⟨hreplies, -, hdisjoint⟩ := List.nodup_append.mp h
    have hnew : node ∉ replies := fun hmem => hdisjoint node hmem node (by simp) rfl
    rw [clippedRepetitions_concat, ih hreplies, List.nil_append, if_neg fun hclip => hnew hclip.1]

theorem withoutRepetitions_concat (replies : List Nat) (node : Nat) :
    withoutRepetitions (replies ++ [node]) =
      if node ∈ withoutRepetitions replies then withoutRepetitions replies
      else withoutRepetitions replies ++ [node] := by
  rw [withoutRepetitions, List.foldl_append]
  rfl

theorem mem_withoutRepetitions {replies : List Nat} {node : Nat} :
    node ∈ withoutRepetitions replies ↔ node ∈ replies := by
  induction replies using List.reverseRecOn with
  | nil => simp [withoutRepetitions]
  | append_singleton replies last ih =>
    rw [withoutRepetitions_concat]
    split
    next hlast =>
      rw [ih, List.mem_append, List.mem_singleton]
      exact ⟨.inl, fun h => h.elim id fun heq => ih.mp (heq ▸ hlast)⟩
    · rw [List.mem_append, List.mem_append, ih]

theorem collect_withoutRepetitions (replies : List Nat) :
    Sorted.collect (withoutRepetitions replies) = Sorted.collect replies :=
  Sorted.collect_eq (Sorted.collect_ascending replies) fun node => by
    rw [mem_withoutRepetitions, Sorted.mem_collect]

/-- The number of nodes that the cache of this size has counted as clipped after these replies. -/
def clipped (size : Nat) (replies : List Nat) : Nat :=
  ((Sorted.collect replies).length - size) + clippedRepetitions size [] replies

theorem deliver_concat (cache : TrainNodeInfoCache) (replies : List Nat) (node : Nat) :
    cache.deliver (replies ++ [node]) = (cache.deliver replies).resultCallback node := by
  simp [deliver]

section step

variable {size : Nat} {replies : List Nat} {node : Nat}

/-- A reply of a node that is in the list. -/
theorem clipped_known (h : node ∈ (Sorted.collect replies).take size) :
    Sorted.collect (replies ++ [node]) = Sorted.collect replies ∧
      clipped size (replies ++ [node]) = clipped size replies := by
  have hmem : node ∈ Sorted.collect replies := List.mem_of_mem_take h
  have hcollect := Sorted.collect_concat_of_mem (Sorted.mem_collect.mp hmem)
  have hfew := (Sorted.mem_take_iff (Sorted.collect_ascending replies) hmem).mp h
  rw [Sorted.collect_filter_length] at hfew
  refine ⟨hcollect, ?_⟩
  rw [clipped, hcollect, clippedRepetitions_concat, List.nil_append,
    if_neg fun hclip => Nat.not_lt.mpr hclip.2 hfew]
  rfl

/-- A reply of a new node. -/
theorem clipped_new (h : node ∉ Sorted.collect replies) :
    Sorted.collect (replies ++ [node]) = Sorted.insert node (Sorted.collect replies) ∧
      clipped size (replies ++ [node]) =
        clipped size replies + if size ≤ (Sorted.collect replies).length then 1 else 0 := by
  have hnew : node ∉ replies := mt Sorted.mem_collect.mpr h
  have hcollect := Sorted.collect_concat_of_not_mem hnew
  refine ⟨hcollect, ?_⟩
  rw [clipped, clipped, hcollect, clippedRepetitions_concat, List.nil_append,
    if_neg fun hclip => hnew hclip.1, Sorted.length_insert]
  split <;> omega

/-- A reply of a node that was pushed out of the list.  It is inserted behind all others and pushed
out again. -/
theorem clipped_again (hmem : node ∈ Sorted.collect replies)
    (h : node ∉ (Sorted.collect replies).take size) :
    Sorted.collect (replies ++ [node]) = Sorted.collect replies ∧
      size ≤ (Sorted.collect replies).length ∧
      (Sorted.insert node (Sorted.collect replies)).take size =
        (Sorted.collect replies).take size ∧
      clipped size (replies ++ [node]) = clipped size replies + 1 := by
  have hascending := Sorted.collect_ascending replies
  have hcollect := Sorted.collect_concat_of_mem (Sorted.mem_collect.mp hmem)
  have hmany := mt (Sorted.mem_take_iff hascending hmem).mpr h
  have hsize : size ≤ (Sorted.collect replies).length :=
    (Nat.not_lt.mp hmany).trans (List.length_filter_le _ _)
  have habove : ∀ other ∈ (Sorted.collect replies).take size, other < node := by
    have hdrop : node ∈ (Sorted.collect replies).drop size := by
      rw [← List.take_append_drop size (Sorted.collect replies), List.mem_append] at hmem
      exact hmem.resolve_left h
    exact fun other hother => Sorted.take_lt_drop hascending hother hdrop
  rw [Sorted.collect_filter_length] at hmany
  refine ⟨hcollect, hsize, Sorted.take_insert_of_above hsize habove, ?_⟩
  rw [clipped, hcollect, clippedRepetitions_concat, List.nil_append,
    if_pos ⟨Sorted.mem_collect.mp hmem, Nat.not_lt.mp hmany⟩]
  rfl

end step

theorem inc16_mod (x : Nat) : inc16 (x % 2 ^ 16) = (x + 1) % 2 ^ 16 := by
  simp [inc16]

/-- The list of a first search that these nodes have answered: the smallest of them, and a count of
the clipped ones. -/
structure FirstSearch (cache : TrainNodeInfoCache) (replies : List Nat) : Prop where
  minResult : cache.minResult = kMinNode
  maxResult : cache.maxResult = kMaxNode
  list : cache.trainNodes.Holds ((Sorted.collect replies).take cache.cacheMaxSize)
    0 (clipped cache.cacheMaxSize replies % 2 ^ 16) 0 (clipped cache.cacheMaxSize replies % 2 ^ 16)
    kMinNode kMaxNode

theorem FirstSearch.withTrainNodes {cache : TrainNodeInfoCache} {replies replies' : List Nat}
    {list : ResultList} (h : cache.FirstSearch replies)
    (hlist : list.Holds ((Sorted.collect replies').take cache.cacheMaxSize)
      0 (clipped cache.cacheMaxSize replies' % 2 ^ 16)
      0 (clipped cache.cacheMaxSize replies' % 2 ^ 16) kMinNode kMaxNode) :
    (cache.withTrainNodes list).FirstSearch replies' :=
  ⟨h.minResult, h.maxResult, hlist⟩

theorem firstSearch_resetSearch (settings : Settings) : (resetSearch settings).FirstSearch [] := by
  refine ⟨rfl, rfl, ?_⟩
  simp only [clipped, clippedRepetitions, Sorted.collect_nil, List.take_nil, List.length_nil,
    Nat.zero_sub, Nat.add_zero, Nat.zero_mod]
  exact ResultList.reset_holds

/-- A reply changes only the list. -/
theorem FirstSearch.resultCallback {cache : TrainNodeInfoCache} {replies : List Nat} {node : Nat}
    (h : cache.FirstSearch replies) (hid : IsNodeId node) :
    ∃ list, cache.resultCallback node = cache.withTrainNodes list ∧
      (cache.withTrainNodes list).FirstSearch (replies ++ [node]) := by
  obtain ⟨hzero, hmax⟩ := hid
  have hmin : ¬ node < kMinNode := Nat.not_lt_zero node
  have hlist := h.list
  by_cases hknown : node ∈ (Sorted.collect replies).take cache.cacheMaxSize
  · obtain ⟨hcollect, hclipped⟩ := clipped_known hknown
    refine ⟨cache.trainNodes, resultCallback_known (hlist.nodes ▸ hknown), h.withTrainNodes ?_⟩
    rw [hcollect, hclipped]
    exact hlist
  -- Nothing limits the search, so that the node is accepted.
  have haccepts : cache.Accepts node := by
    refine .inr ⟨?_, ?_⟩
    · rw [h.minResult]
      exact Nat.zero_le _
    · rw [h.maxResult]
      exact hmax
  by_cases hroom : (Sorted.collect replies).length < cache.cacheMaxSize
  · have hall : (Sorted.collect replies).take cache.cacheMaxSize = Sorted.collect replies :=
      List.take_of_length_le (Nat.le_of_lt hroom)
    rw [hall] at hlist hknown
    obtain ⟨hcollect, hclipped⟩ := clipped_new hknown
    obtain ⟨list, heq, hlist'⟩ := resultCallback_added hlist hroom hzero hknown haccepts
    rw [if_neg hmin, if_neg (Nat.not_lt.mpr hmax)] at hlist'
    rw [if_neg (Nat.not_le.mpr hroom), Nat.add_zero] at hclipped
    refine ⟨list, heq, h.withTrainNodes ?_⟩
    rw [hcollect, hclipped, List.take_of_length_le (by rw [Sorted.length_insert]; omega)]
    exact hlist'
  · have hfull := Nat.not_lt.mp hroom
    have hdown : cache.scrollingDown = true := by
      rw [scrollingDown, if_pos (Nat.le_of_eq h.maxResult.symm)]
    obtain ⟨list, heq, hlist'⟩ := resultCallback_pushesLast hlist (List.length_take_of_le hfull)
      hzero hknown haccepts (by rw [h.minResult]; exact Nat.zero_le _) (.inr hdown)
    rw [if_neg hmin, if_neg (Nat.not_lt.mpr hmax), inc16_mod,
      Sorted.dropLast_insert_take hfull] at hlist'
    refine ⟨list, heq, h.withTrainNodes ?_⟩
    by_cases hmem : node ∈ Sorted.collect replies
    · obtain ⟨hcollect, -, htake, hclipped⟩ := clipped_again hmem hknown
      rw [hcollect, hclipped, ← htake]
      exact hlist'
    · obtain ⟨hcollect, hclipped⟩ := clipped_new hmem
      rw [if_pos hfull] at hclipped
      rw [hcollect, hclipped]
      exact hlist'

/-- What the list holds after any replies. -/
theorem firstSearch_deliver (settings : Settings) {replies : List Nat}
    (hids : ∀ node ∈ replies, IsNodeId node) :
    ((resetSearch settings).deliver replies).FirstSearch replies ∧
      ((resetSearch settings).deliver replies).cacheMaxSize = settings.cacheMaxSize := by
  induction replies using List.reverseRecOn with
  | nil => exact ⟨firstSearch_resetSearch settings, rfl⟩
  | append_singleton replies node ih =>
    obtain ⟨hsearch, hsize⟩ := ih fun other hother => hids other (by simp [hother])
    obtain ⟨list, heq, hsearch'⟩ := hsearch.resultCallback (hids node (by simp))
    rw [deliver_concat, heq]
    exact ⟨hsearch', hsize⟩

/-- Replies with repetitions leave the train list as it would be without them exactly when, modulo
the size of the counter, no reply repeats one of a node that was pushed out of the list, and the
counter holds the number of the nodes pushed out. -/
theorem repetitions_harmless_iff (settings : Settings) (replies : List Nat)
    (hids : ∀ node ∈ replies, IsNodeId node) :
    (((resetSearch settings).deliver replies).trainNodes.numResults = replies.toFinset.card ∧
      ((resetSearch settings).deliver replies).trainNodes.nodes =
        ((resetSearch settings).deliver (withoutRepetitions replies)).trainNodes.nodes) ↔
    clippedRepetitions settings.cacheMaxSize [] replies % 2 ^ 16 = 0 ∧
      replies.toFinset.card - settings.cacheMaxSize < 2 ^ 16 := by
  obtain ⟨hsearch, hsize⟩ := firstSearch_deliver settings hids
  obtain ⟨hsearch', hsize'⟩ := firstSearch_deliver settings
    fun node hnode => hids node (mem_withoutRepetitions.mp hnode)
  have hsame : ((resetSearch settings).deliver replies).trainNodes.nodes =
      ((resetSearch settings).deliver (withoutRepetitions replies)).trainNodes.nodes := by
    rw [hsearch.list.nodes, hsearch'.list.nodes, collect_withoutRepetitions, hsize, hsize']
  have hnum : ((resetSearch settings).deliver replies).trainNodes.numResults =
      clipped settings.cacheMaxSize replies % 2 ^ 16 +
        min settings.cacheMaxSize.val (Sorted.collect replies).length := by
    rw [hsearch.list.numResults, Nat.zero_add, List.length_take, hsize]
  rw [hnum, and_iff_left hsame, ← Sorted.collect_length, clipped]
  omega

/-- Three replies of two nodes to a list of two. -/
theorem repetitions_harmless_twoNodes :
    (((resetSearch ⟨3, 2, 0, false⟩).deliver [2, 1, 2]).trainNodes.numResults =
        [2, 1, 2].toFinset.card ∧
      ((resetSearch ⟨3, 2, 0, false⟩).deliver [2, 1, 2]).trainNodes.nodes =
        ((resetSearch ⟨3, 2, 0, false⟩).deliver (withoutRepetitions [2, 1, 2])).trainNodes.nodes) ↔
    clippedRepetitions 2 [] [2, 1, 2] % 2 ^ 16 = 0 ∧ [2, 1, 2].toFinset.card - 2 < 2 ^ 16 :=
  repetitions_harmless_iff ⟨3, 2, 0, false⟩ [2, 1, 2] (by simp [IsNodeId, kMaxNode])

/-- A list of one node counts a node that it has clipped again when that node answers again. -/
theorem clipped_counted_again :
    (∀ node ∈ [1, 2, 2], IsNodeId node) ∧
      ((resetSearch ⟨1, 1, 0, false⟩).deliver [1, 2, 2]).trainNodes.numResults ≠
        [1, 2, 2].toFinset.card :=
  ⟨by simp [IsNodeId, kMaxNode], by decide⟩

end TrainNodeInfoCache

end OpenmrnCue.CommandStation
