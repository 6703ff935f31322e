import Mathlib.Data.List.Pairwise
import Mathlib.Data.List.Perm.Subperm
import OpenmrnCue.CommandStation.TrainListReplies

/-! The searches that refill a train list.  The nodes of the railway are the ones above the list,
the ones of the list and the ones below it.  A search downwards replaces nodes at the top of the
list by ones from below it, a search upwards the other way round, and the counters of clipped nodes
follow, in whatever order the nodes answer. -/

namespace OpenmrnCue.CommandStation

open TrainNodeInfoCache

section limits

variable {nodes : List Nat}

theorem firstOf_mem (h : nodes ≠ []) : firstOf nodes ∈ nodes := by
  rw [firstOf, List.head?_eq_some_head h]
  exact List.head_mem h

theorem lastOf_mem (h : nodes ≠ []) : lastOf nodes ∈ nodes := by
  rw [lastOf, List.getLast?_eq_some_getLast h]
  exact List.getLast_mem h

theorem firstOf_le (hnodes : nodes.Pairwise (· < ·)) {node : Nat} (h : node ∈ nodes) :
    firstOf nodes ≤ node := by
  rw [firstOf, List.head?_eq_some_head (List.ne_nil_of_mem h)]
  exact (hnodes.imp (S := (· ≤ ·)) fun hlt => Nat.le_of_lt hlt).rel_head h

theorem le_lastOf (hnodes : nodes.Pairwise (· < ·)) {node : Nat} (h : node ∈ nodes) :
    node ≤ lastOf nodes := by
  rw [lastOf, List.getLast?_eq_some_getLast (List.ne_nil_of_mem h)]
  exact (hnodes.imp (S := (· ≤ ·)) fun hlt => Nat.le_of_lt hlt).rel_getLast h

theorem firstOf_append (h : nodes ≠ []) (rest : List Nat) :
    firstOf (nodes ++ rest) = firstOf nodes := by
  rw [firstOf, firstOf, List.head?_append_of_ne_nil _ h]

theorem lastOf_append (h : nodes ≠ []) (start : List Nat) :
    lastOf (start ++ nodes) = lastOf nodes := by
  rw [lastOf, lastOf, List.getLast?_append_of_ne_nil _ h]

end limits

theorem inc16_of_lt {x : Nat} (h : x + 1 < 2 ^ 16) : inc16 x = x + 1 := Nat.mod_eq_of_lt h

theorem dec16_of_pos {x : Nat} (hpos : 0 < x) (h : x < 2 ^ 16) : dec16 x = x - 1 := by
  rw [dec16]
  omega

/-- A node that is before the list and before the limits is not added, nor one that is behind
both. -/
theorem not_accepts_of_lt {cache : TrainNodeInfoCache} {node : Nat}
    (hmin : node < cache.trainNodes.minNode) (hlimit : node < cache.minResult) :
    ¬ cache.Accepts node := by
  rintro (⟨hle, -⟩ | ⟨hle, -⟩)
  · exact Nat.not_le.mpr hmin hle
  · exact Nat.not_le.mpr hlimit hle

theorem not_accepts_of_gt {cache : TrainNodeInfoCache} {node : Nat}
    (hmax : cache.trainNodes.maxNode < node) (hlimit : cache.maxResult < node) :
    ¬ cache.Accepts node := by
  rintro (⟨-, hle⟩ | ⟨-, hle⟩)
  · exact Nat.not_le.mpr hmax hle
  · exact Nat.not_le.mpr hlimit hle

/-- The nodes that answer a search, in their order: the ones above the list, the list, and the ones
below it. -/
structure Layout (above window below : List Nat) : Prop where
  ascending : (above ++ window ++ below).Pairwise (· < ·)
  ids : ∀ node ∈ above ++ window ++ below, IsNodeId node
  few : above.length + window.length + below.length < 2 ^ 16
  nonempty : window ≠ []

namespace Layout

variable {above window below : List Nat} {node other : Nat}

theorem above_lt_window (h : Layout above window below) (hnode : node ∈ above)
    (hother : other ∈ window) : node < other := by
  have hasc := (List.pairwise_append.mp h.ascending).1
  exact (List.pairwise_append.mp hasc).2.2 node hnode other hother

theorem window_lt_below (h : Layout above window below) (hnode : node ∈ window)
    (hother : other ∈ below) : node < other :=
  (List.pairwise_append.mp h.ascending).2.2 node (by simp [hnode]) other hother

theorem window_ascending (h : Layout above window below) : window.Pairwise (· < ·) :=
  (List.pairwise_append.mp (List.pairwise_append.mp h.ascending).1).2.1

theorem above_ascending (h : Layout above window below) : above.Pairwise (· < ·) :=
  (List.pairwise_append.mp (List.pairwise_append.mp h.ascending).1).1

theorem below_ascending (h : Layout above window below) : below.Pairwise (· < ·) :=
  (List.pairwise_append.mp h.ascending).2.1

theorem mem_above_iff (h : Layout above window below) (hnode : node ∈ above ++ window ++ below) :
    node ∈ above ↔ node < firstOf window := by
  constructor
  · intro habove
    exact h.above_lt_window habove (firstOf_mem h.nonempty)
  · intro hlt
    rcases List.mem_append.mp hnode with hnode | hbelow
    · rcases List.mem_append.mp hnode with habove | hwindow
      · exact habove
      · exact absurd (firstOf_le h.window_ascending hwindow) (Nat.not_le.mpr hlt)
    · exact absurd (h.window_lt_below (firstOf_mem h.nonempty) hbelow) (Nat.lt_asymm hlt)

theorem mem_below_iff (h : Layout above window below) (hnode : node ∈ above ++ window ++ below) :
    node ∈ below ↔ lastOf window < node := by
  constructor
  · exact h.window_lt_below (lastOf_mem h.nonempty)
  · intro hlt
    rcases List.mem_append.mp hnode with hnode | hbelow
    · rcases List.mem_append.mp hnode with habove | hwindow
      · exact absurd (h.above_lt_window habove (lastOf_mem h.nonempty)) (Nat.lt_asymm hlt)
      · exact absurd (le_lastOf h.window_ascending hwindow) (Nat.not_le.mpr hlt)
    · exact hbelow

end Layout

/-- The replies of nodes above the list and of nodes below it. -/
def repliesAbove (window replies : List Nat) : List Nat :=
  Sorted.collect (replies.filter (· < firstOf window))

def repliesBelow (window replies : List Nat) : List Nat :=
  Sorted.collect (replies.filter (lastOf window < ·))

section replies

variable {above window below replies : List Nat} {node : Nat}

theorem mem_repliesAbove (hlayout : Layout above window below)
    (hreplies : ∀ node ∈ replies, node ∈ above ++ window ++ below) :
    node ∈ repliesAbove window replies ↔ node ∈ replies ∧ node ∈ above := by
  rw [repliesAbove, Sorted.mem_collect, List.mem_filter, decide_eq_true_iff]
  exact and_congr_right fun hnode => (hlayout.mem_above_iff (hreplies node hnode)).symm

theorem mem_repliesBelow (hlayout : Layout above window below)
    (hreplies : ∀ node ∈ replies, node ∈ above ++ window ++ below) :
    node ∈ repliesBelow window replies ↔ node ∈ replies ∧ node ∈ below := by
  rw [repliesBelow, Sorted.mem_collect, List.mem_filter, decide_eq_true_iff]
  exact and_congr_right fun hnode => (hlayout.mem_below_iff (hreplies node hnode)).symm

theorem repliesAbove_concat (hlayout : Layout above window below)
    (hnode : node ∈ above ++ window ++ below) (hnew : node ∉ replies) :
    repliesAbove window (replies ++ [node]) =
      if node ∈ above then Sorted.insert node (repliesAbove window replies)
      else repliesAbove window replies := by
  have hiff := hlayout.mem_above_iff hnode
  rw [repliesAbove, List.filter_append]
  split
  next habove =>
    rw [List.filter_cons_of_pos (by simpa using hiff.mp habove), List.filter_nil]
    exact Sorted.collect_concat_of_not_mem fun hmem => hnew (List.mem_of_mem_filter hmem)
  next habove =>
    rw [List.filter_cons_of_neg (by simpa using mt hiff.mpr habove), List.filter_nil,
      List.append_nil]
    rfl

theorem repliesBelow_concat (hlayout : Layout above window below)
    (hnode : node ∈ above ++ window ++ below) (hnew : node ∉ replies) :
    repliesBelow window (replies ++ [node]) =
      if node ∈ below then Sorted.insert node (repliesBelow window replies)
      else repliesBelow window replies := by
  have hiff := hlayout.mem_below_iff hnode
  rw [repliesBelow, List.filter_append]
  split
  next hbelow =>
    rw [List.filter_cons_of_pos (by simpa using hiff.mp hbelow), List.filter_nil]
    exact Sorted.collect_concat_of_not_mem fun hmem => hnew (List.mem_of_mem_filter hmem)
  next hbelow =>
    rw [List.filter_cons_of_neg (by simpa using mt hiff.mpr hbelow), List.filter_nil,
      List.append_nil]
    rfl

theorem repliesAbove_length_le (hlayout : Layout above window below)
    (hreplies : ∀ node ∈ replies, node ∈ above ++ window ++ below) :
    (repliesAbove window replies).length ≤ above.length := by
  have hnodup : (repliesAbove window replies).Nodup :=
    (Sorted.collect_ascending _).imp fun hlt => Nat.ne_of_lt hlt
  exact (hnodup.subperm fun node hnode =>
    ((mem_repliesAbove hlayout hreplies).mp hnode).2).length_le

theorem repliesBelow_length_le (hlayout : Layout above window below)
    (hreplies : ∀ node ∈ replies, node ∈ above ++ window ++ below) :
    (repliesBelow window replies).length ≤ below.length := by
  have hnodup : (repliesBelow window replies).Nodup :=
    (Sorted.collect_ascending _).imp fun hlt => Nat.ne_of_lt hlt
  exact (hnodup.subperm fun node hnode =>
    ((mem_repliesBelow hlayout hreplies).mp hnode).2).length_le

/-- After all replies. -/
theorem repliesAbove_complete (hlayout : Layout above window below)
    (hreplies : ∀ node, node ∈ replies ↔ node ∈ above ++ window ++ below) :
    repliesAbove window replies = above :=
  (Sorted.collect_ascending _).eq_of_mem_iff hlayout.above_ascending fun {node} => by
    rw [← repliesAbove, mem_repliesAbove hlayout fun node hnode => (hreplies node).mp hnode,
      hreplies]
    simp +contextual

theorem repliesBelow_complete (hlayout : Layout above window below)
    (hreplies : ∀ node, node ∈ replies ↔ node ∈ above ++ window ++ below) :
    repliesBelow window replies = below :=
  (Sorted.collect_ascending _).eq_of_mem_iff hlayout.below_ascending fun {node} => by
    rw [← repliesBelow, mem_repliesBelow hlayout fun node hnode => (hreplies node).mp hnode,
      hreplies]
    simp +contextual

end replies

/-- The list in a search downwards: the first nodes of the old list have made room for the first
ones from below, up to the node at `limit`. -/
def downwards (limit : Nat) (window fresh : List Nat) : List Nat :=
  window.drop (min fresh.length limit) ++ fresh.take limit

/-- What the list holds after the replies `fresh` from below it and `seen` ones from above it. -/
def HoldsDownwards (above window below : List Nat) (limit seen : Nat) (fresh : List Nat)
    (list : ResultList) : Prop :=
  list.Holds (downwards limit window fresh) (above.length + min fresh.length limit)
    (below.length - min fresh.length limit) (seen + min fresh.length limit)
    (fresh.length - min fresh.length limit) (firstOf window) (lastOf window)

/-- A search downwards that these nodes have answered. -/
structure Downwards (above window below : List Nat) (limit : Nat) (replies : List Nat)
    (cache : TrainNodeInfoCache) : Prop where
  size : window.length = cache.cacheMaxSize
  minResult : window[limit]? = some cache.minResult
  maxResult : cache.maxResult = kMaxNode
  known : ∀ node ∈ replies, node ∈ above ++ window ++ below
  list : HoldsDownwards above window below limit (repliesAbove window replies).length
    (repliesBelow window replies) cache.trainNodes

section downwards

variable {above window below replies fresh : List Nat} {limit node : Nat}
  {cache : TrainNodeInfoCache}

theorem downwards_start_ne_nil (fresh : List Nat) (hlimit : limit < window.length) :
    window.drop (min fresh.length limit) ≠ [] := by
  rw [ne_eq, List.drop_eq_nil_iff]
  omega

theorem downwards_length (hlimit : limit ≤ window.length) :
    (downwards limit window fresh).length = window.length := by
  rw [downwards, List.length_append, List.length_drop, List.length_take]
  omega

/-- A node from below the list goes to the end of it while there are nodes before `limit`. -/
theorem downwards_insert_room (hlimit : limit < window.length) (hfresh : fresh.length < limit)
    (habove : ∀ other ∈ window, other < node) :
    firstOf (Sorted.insert node (downwards limit window fresh)) =
        window.get ⟨fresh.length, by omega⟩ ∧
      (Sorted.insert node (downwards limit window fresh)).tail =
        downwards limit window (Sorted.insert node fresh) := by
  have hdrop : window.drop fresh.length =
      window.get ⟨fresh.length, by omega⟩ :: window.drop (fresh.length + 1) := by
    rw [List.get_eq_getElem, ← List.drop_eq_getElem_cons]
  have hinsert : Sorted.insert node (downwards limit window fresh) =
      window.drop fresh.length ++ Sorted.insert node fresh := by
    rw [downwards, Nat.min_eq_left (Nat.le_of_lt hfresh),
      List.take_of_length_le (Nat.le_of_lt hfresh)]
    exact Sorted.insert_append_of_above fun other hother =>
      habove other (List.mem_of_mem_drop hother)
  rw [hinsert, hdrop, downwards, Sorted.length_insert, Nat.min_eq_left hfresh,
    List.take_of_length_le (by rw [Sorted.length_insert]; exact hfresh)]
  exact ⟨rfl, rfl⟩

/-- Once there are no nodes before `limit`, the last node is pushed out. -/
theorem downwards_insert_full (hlimit : limit < window.length) (hfresh : limit ≤ fresh.length)
    (habove : ∀ other ∈ window, other < node) :
    firstOf (Sorted.insert node (downwards limit window fresh)) = window.get ⟨limit, hlimit⟩ ∧
      (Sorted.insert node (downwards limit window fresh)).dropLast =
        downwards limit window (Sorted.insert node fresh) := by
  have hdrop : window.drop limit = window.get ⟨limit, hlimit⟩ :: window.drop (limit + 1) := by
    rw [List.get_eq_getElem, ← List.drop_eq_getElem_cons]
  have hinsert : Sorted.insert node (downwards limit window fresh) =
      window.drop limit ++ Sorted.insert node (fresh.take limit) := by
    rw [downwards, Nat.min_eq_right hfresh]
    exact Sorted.insert_append_of_above fun other hother =>
      habove other (List.mem_of_mem_drop hother)
  have hne : Sorted.insert node (fresh.take limit) ≠ [] :=
    List.ne_nil_of_length_pos (by rw [Sorted.length_insert]; omega)
  refine ⟨by rw [hinsert, hdrop]; rfl, ?_⟩
  rw [hinsert, List.dropLast_append_of_ne_nil hne, Sorted.dropLast_insert_take hfresh, downwards,
    Sorted.length_insert, Nat.min_eq_right (by omega)]

/-- Where a node is, if it has not answered. -/
theorem not_mem_fresh (hlayout : Layout above window below)
    (hknown : ∀ node ∈ replies, node ∈ above ++ window ++ below) (hnew : node ∉ replies) :
    node ∉ repliesBelow window replies :=
  fun hmem => hnew ((mem_repliesBelow hlayout hknown).mp hmem).1

/-- The nodes of the list before the node at `limit` are below it. -/
theorem lt_getElem_of_mem_take (hwindow : window.Pairwise (· < ·)) {count : Nat}
    (hcount : count ≤ limit) (hlimit : limit < window.length) (hnode : node ∈ window.take count) :
    node < window.get ⟨limit, hlimit⟩ := by
  refine Sorted.take_lt_drop hwindow (n := limit) (List.take_subset_take_left _ hcount hnode) ?_
  rw [List.mem_drop_iff_getElem]
  exact ⟨0, by simpa using hlimit, by simp⟩

namespace Downwards

theorem limit_lt (h : Downwards above window below limit replies cache) :
    limit < window.length :=
  (List.getElem?_eq_some_iff.mp h.minResult).1

theorem minResult_eq (h : Downwards above window below limit replies cache) :
    cache.minResult = window.get ⟨limit, h.limit_lt⟩ :=
  (List.getElem?_eq_some_iff.mp h.minResult).2.symm

theorem minResult_mem (h : Downwards above window below limit replies cache) :
    cache.minResult ∈ window :=
  List.mem_of_getElem? h.minResult

theorem minNode_mem (h : Downwards above window below limit replies cache) :
    cache.trainNodes.minNode ∈
      window.drop (min (repliesBelow window replies).length limit) := by
  have hne := downwards_start_ne_nil (repliesBelow window replies) h.limit_lt
  rw [ResultList.minNode, h.list.nodes, downwards, firstOf_append hne]
  exact firstOf_mem hne

theorem length_le (h : Downwards above window below limit replies cache) :
    (downwards limit window (repliesBelow window replies)).length = cache.cacheMaxSize :=
  (downwards_length (Nat.le_of_lt h.limit_lt)).trans h.size

theorem known_concat (h : Downwards above window below limit replies cache)
    (hnode : node ∈ above ++ window ++ below) :
    ∀ other ∈ replies ++ [node], other ∈ above ++ window ++ below := by
  intro other hother
  rcases List.mem_append.mp hother with hother | hother
  · exact h.known other hother
  · rw [List.mem_singleton.mp hother]
    exact hnode

/-- A node from above the list is counted. -/
theorem reply_above (hlayout : Layout above window below)
    (h : Downwards above window below limit replies cache) (hnode : node ∈ above)
    (hnew : node ∉ replies) :
    ∃ list, cache.resultCallback node = cache.withTrainNodes list ∧
      Downwards above window below limit (replies ++ [node]) (cache.withTrainNodes list) := by
  have hall : node ∈ above ++ window ++ below := by simp [hnode]
  have hbelow : node ∉ below := fun hbelow => Nat.lt_asymm
    (hlayout.above_lt_window hnode (firstOf_mem hlayout.nonempty))
    (hlayout.window_lt_below (firstOf_mem hlayout.nonempty) hbelow)
  have hmin : node < cache.trainNodes.minNode :=
    hlayout.above_lt_window hnode (List.mem_of_mem_drop h.minNode_mem)
  have hlimit : node < cache.minResult := hlayout.above_lt_window hnode h.minResult_mem
  have hfirst := (hlayout.mem_above_iff hall).mp hnode
  have hnodes : node ∉ downwards limit window (repliesBelow window replies) := by
    intro hmem
    rcases List.mem_append.mp hmem with hmem | hmem
    · exact Nat.lt_irrefl _ (hlayout.above_lt_window hnode (List.mem_of_mem_drop hmem))
    · exact not_mem_fresh hlayout h.known hnew (List.mem_of_mem_take hmem)
  have hid := hlayout.ids node hall
  have hcount := repliesAbove_length_le hlayout (h.known_concat hall)
  have hfresh := repliesBelow_length_le hlayout h.known
  have hfew := hlayout.few
  rw [repliesAbove_concat hlayout hall hnew, if_pos hnode, Sorted.length_insert] at hcount
  obtain ⟨list, heq, hlist⟩ := resultCallback_rejected h.list (Nat.le_of_eq h.length_le) hid.1
    hnodes (not_accepts_of_lt hmin hlimit)
  rw [if_pos ⟨hlimit, hfirst⟩, h.maxResult, if_neg fun hc => Nat.not_lt.mpr hid.2 hc.1,
    inc16_of_lt (by omega)] at hlist
  refine ⟨list, heq, h.size, h.minResult, h.maxResult, h.known_concat hall, ?_⟩
  rw [repliesAbove_concat hlayout hall hnew, if_pos hnode, repliesBelow_concat hlayout hall hnew,
    if_neg hbelow, Sorted.length_insert, HoldsDownwards, Nat.add_right_comm]
  exact hlist

/-- A node of the old list is known, or it was pushed out and it is counted already. -/
theorem reply_window (hlayout : Layout above window below)
    (h : Downwards above window below limit replies cache) (hnode : node ∈ window)
    (hnew : node ∉ replies) :
    ∃ list, cache.resultCallback node = cache.withTrainNodes list ∧
      Downwards above window below limit (replies ++ [node]) (cache.withTrainNodes list) := by
  have hall : node ∈ above ++ window ++ below := by simp [hnode]
  have hbelow : node ∉ below := fun hbelow =>
    Nat.lt_irrefl _ (hlayout.window_lt_below hnode hbelow)
  have habove : node ∉ above := fun habove =>
    Nat.lt_irrefl _ (hlayout.above_lt_window habove hnode)
  have hid := hlayout.ids node hall
  have hkeeps : ∀ list, HoldsDownwards above window below limit
      (repliesAbove window replies).length (repliesBelow window replies) list →
      Downwards above window below limit (replies ++ [node]) (cache.withTrainNodes list) := by
    intro list hlist
    refine ⟨h.size, h.minResult, h.maxResult, h.known_concat hall, ?_⟩
    rw [repliesAbove_concat hlayout hall hnew, if_neg habove,
      repliesBelow_concat hlayout hall hnew, if_neg hbelow]
    exact hlist
  by_cases hknown : node ∈ downwards limit window (repliesBelow window replies)
  · exact ⟨cache.trainNodes, resultCallback_known (h.list.nodes ▸ hknown), hkeeps _ h.list⟩
  have htake : node ∈ window.take (min (repliesBelow window replies).length limit) := by
    rw [← List.take_append_drop (min (repliesBelow window replies).length limit) window,
      List.mem_append] at hnode
    exact hnode.resolve_right fun hdrop => hknown (List.mem_append_left _ hdrop)
  have hmin := Sorted.take_lt_drop hlayout.window_ascending htake h.minNode_mem
  have hlimit : node < cache.minResult := by
    rw [h.minResult_eq]
    exact lt_getElem_of_mem_take hlayout.window_ascending (Nat.min_le_right _ _) _ htake
  obtain ⟨list, heq, hlist⟩ := resultCallback_rejected h.list (Nat.le_of_eq h.length_le) hid.1
    hknown (not_accepts_of_lt hmin hlimit)
  rw [if_neg fun hc => Nat.not_lt.mpr (firstOf_le hlayout.window_ascending hnode) hc.2,
    if_neg fun hc => Nat.not_lt.mpr (le_lastOf hlayout.window_ascending hnode) hc.2] at hlist
  exact ⟨list, heq, hkeeps list hlist⟩

/-- A node from below the list pushes out the first node before the limit, or the last one. -/
theorem reply_below (hlayout : Layout above window below)
    (h : Downwards above window below limit replies cache) (hnode : node ∈ below)
    (hnew : node ∉ replies) :
    ∃ list, cache.resultCallback node = cache.withTrainNodes list ∧
      Downwards above window below limit (replies ++ [node]) (cache.withTrainNodes list) := by
  have hall : node ∈ above ++ window ++ below := by simp [hnode]
  have hwindow : ∀ other ∈ window, other < node := fun other hother =>
    hlayout.window_lt_below hother hnode
  have habove : node ∉ above := fun habove => Nat.lt_asymm
    (hlayout.above_lt_window habove (firstOf_mem hlayout.nonempty))
    (hwindow _ (firstOf_mem hlayout.nonempty))
  have hid := hlayout.ids node hall
  have hlast := (hlayout.mem_below_iff hall).mp hnode
  have hfirst : ¬ node < firstOf window :=
    Nat.lt_asymm (hwindow _ (firstOf_mem hlayout.nonempty))
  have haccepts : cache.Accepts node := by
    refine .inr ⟨Nat.le_of_lt (hwindow _ h.minResult_mem), ?_⟩
    rw [h.maxResult]
    exact hid.2
  have hnodes : node ∉ downwards limit window (repliesBelow window replies) := by
    intro hmem
    rcases List.mem_append.mp hmem with hmem | hmem
    · exact Nat.lt_irrefl _ (hwindow _ (List.mem_of_mem_drop hmem))
    · exact not_mem_fresh hlayout h.known hnew (List.mem_of_mem_take hmem)
  have hcount := repliesBelow_length_le hlayout (h.known_concat hall)
  have hseen := repliesAbove_length_le hlayout h.known
  have hfew := hlayout.few
  have hlimit := h.limit_lt
  rw [repliesBelow_concat hlayout hall hnew, if_pos hnode, Sorted.length_insert] at hcount
  by_cases hroom : (repliesBelow window replies).length < limit
  · obtain ⟨hhead, htail⟩ := downwards_insert_room hlimit hroom hwindow
    have hlt : firstOf (Sorted.insert node
        (downwards limit window (repliesBelow window replies))) < cache.minResult := by
      rw [hhead, h.minResult_eq]
      exact List.pairwise_iff_getElem.mp hlayout.window_ascending _ _ _ _ hroom
    obtain ⟨list, heq, hlist⟩ := resultCallback_pushesFirst h.list h.length_le hid.1 hnodes
      haccepts (.inl hlt)
    rw [if_neg hfirst, if_pos hlast, htail, inc16_of_lt (by omega), inc16_of_lt (by omega),
      dec16_of_pos (by omega) (by omega)] at hlist
    refine ⟨list, heq, h.size, h.minResult, h.maxResult, h.known_concat hall, ?_⟩
    rw [repliesAbove_concat hlayout hall hnew, if_neg habove,
      repliesBelow_concat hlayout hall hnew, if_pos hnode, HoldsDownwards, Sorted.length_insert]
    exact hlist.congr (by omega) (by omega) (by omega) (by omega)
  · have hfull := Nat.not_lt.mp hroom
    obtain ⟨hhead, hinit⟩ := downwards_insert_full hlimit hfull hwindow
    have hdown : cache.scrollingDown = true := by
      rw [scrollingDown, if_pos (Nat.le_of_eq h.maxResult.symm)]
    obtain ⟨list, heq, hlist⟩ := resultCallback_pushesLast h.list h.length_le hid.1 hnodes
      haccepts (by rw [hhead, h.minResult_eq]) (.inr hdown)
    rw [if_neg hfirst, if_pos hlast, hinit, dec16_of_pos (by omega) (by omega),
      inc16_of_lt (by omega), inc16_of_lt (by omega)] at hlist
    refine ⟨list, heq, h.size, h.minResult, h.maxResult, h.known_concat hall, ?_⟩
    rw [repliesAbove_concat hlayout hall hnew, if_neg habove,
      repliesBelow_concat hlayout hall hnew, if_pos hnode, HoldsDownwards, Sorted.length_insert]
    exact hlist.congr (by omega) (by omega) (by omega) (by omega)

/-- One reply to a search downwards. -/
theorem resultCallback (hlayout : Layout above window below)
    (h : Downwards above window below limit replies cache)
    (hnode : node ∈ above ++ window ++ below) (hnew : node ∉ replies) :
    ∃ list, cache.resultCallback node = cache.withTrainNodes list ∧
      Downwards above window below limit (replies ++ [node]) (cache.withTrainNodes list) := by
  rcases List.mem_append.mp hnode with hnode | hbelow
  · rcases List.mem_append.mp hnode with habove | hwindow
    · exact h.reply_above hlayout habove hnew
    · exact h.reply_window hlayout hwindow hnew
  · exact h.reply_below hlayout hbelow hnew

/-- The list after all replies. -/
theorem complete (hlayout : Layout above window below)
    (h : Downwards above window below limit replies cache)
    (hreplies : ∀ node, node ∈ replies ↔ node ∈ above ++ window ++ below) :
    HoldsDownwards above window below limit above.length below cache.trainNodes := by
  have hlist := h.list
  rw [repliesAbove_complete hlayout hreplies, repliesBelow_complete hlayout hreplies] at hlist
  exact hlist

end Downwards

end downwards

/-- The list in a search upwards: the last nodes of the old list, `spare` ones at most, have made
room for the last ones from above. -/
def upwards (spare : Nat) (window fresh : List Nat) : List Nat :=
  fresh.drop (fresh.length - spare) ++ window.take (window.length - min fresh.length spare)

/-- What the list holds after the replies `fresh` from above it and `seen` ones from below it. -/
def HoldsUpwards (above window below : List Nat) (spare seen : Nat) (fresh : List Nat)
    (list : ResultList) : Prop :=
  list.Holds (upwards spare window fresh) (above.length - min fresh.length spare)
    (below.length + min fresh.length spare) (fresh.length - min fresh.length spare)
    (seen + min fresh.length spare) (firstOf window) (lastOf window)

/-- A search upwards that these nodes have answered. -/
structure Upwards (above window below : List Nat) (spare : Nat) (replies : List Nat)
    (cache : TrainNodeInfoCache) : Prop where
  size : window.length = cache.cacheMaxSize
  minResult : cache.minResult = kMinNode
  maxResult : window[window.length - spare - 1]? = some cache.maxResult
  spare_pos : 0 < spare
  spare_lt : spare < window.length
  known : ∀ node ∈ replies, node ∈ above ++ window ++ below
  list : HoldsUpwards above window below spare (repliesBelow window replies).length
    (repliesAbove window replies) cache.trainNodes

section upwards

variable {above window below replies fresh : List Nat} {spare node : Nat}
  {cache : TrainNodeInfoCache}

theorem upwards_length (hspare : spare < window.length) :
    (upwards spare window fresh).length = window.length := by
  rw [upwards, List.length_append, List.length_drop, List.length_take]
  omega

theorem upwards_end_ne_nil (fresh : List Nat) (hspare : spare < window.length) :
    window.take (window.length - min fresh.length spare) ≠ [] :=
  List.ne_nil_of_length_pos (by rw [List.length_take]; omega)

theorem lastOf_take {count : Nat} (hcount : count < window.length) :
    lastOf (window.take (count + 1)) = window.get ⟨count, hcount⟩ := by
  rw [lastOf, List.take_add_one, List.getElem?_eq_getElem hcount, Option.toList_some,
    List.getLast?_concat]
  rfl

/-- A node from above the list goes to the start of it while there are nodes to spare. -/
theorem upwards_insert_room (hspare : spare < window.length) (hfresh : fresh.length < spare)
    (hbelow : ∀ other ∈ window, node < other) :
    lastOf (Sorted.insert node (upwards spare window fresh)) =
        window.get ⟨window.length - fresh.length - 1, by omega⟩ ∧
      (Sorted.insert node (upwards spare window fresh)).dropLast =
        upwards spare window (Sorted.insert node fresh) := by
  have hinsert : Sorted.insert node (upwards spare window fresh) =
      Sorted.insert node fresh ++ window.take (window.length - fresh.length) := by
    rw [upwards, Nat.min_eq_left (Nat.le_of_lt hfresh),
      Nat.sub_eq_zero_of_le (Nat.le_of_lt hfresh), List.drop_zero]
    exact Sorted.insert_append_of_below fun other hother =>
      hbelow other (List.mem_of_mem_take hother)
  have hne : window.take (window.length - fresh.length) ≠ [] :=
    List.ne_nil_of_length_pos (by rw [List.length_take]; omega)
  have hinit : (window.take (window.length - fresh.length)).dropLast =
      window.take (window.length - (fresh.length + 1)) := by
    rw [List.dropLast_eq_take, List.length_take, List.take_take]
    congr 1
    omega
  have hcount : window.length - fresh.length = window.length - fresh.length - 1 + 1 := by omega
  rw [hinsert]
  refine ⟨?_, ?_⟩
  · rw [lastOf_append hne]
    conv => lhs; rw [hcount]
    exact lastOf_take _
  · rw [List.dropLast_append_of_ne_nil hne, hinit, upwards, Sorted.length_insert,
      Nat.min_eq_left hfresh, Nat.sub_eq_zero_of_le hfresh, List.drop_zero]

/-- Once there are no nodes to spare, the first node is pushed out. -/
theorem upwards_insert_full (hspare : spare < window.length) (hfresh : spare ≤ fresh.length)
    (hbelow : ∀ other ∈ window, node < other) (hascending : fresh.Pairwise (· < ·))
    (hnew : node ∉ fresh) :
    lastOf (Sorted.insert node (upwards spare window fresh)) =
        window.get ⟨window.length - spare - 1, by omega⟩ ∧
      (Sorted.insert node (upwards spare window fresh)).tail =
        upwards spare window (Sorted.insert node fresh) := by
  have hinsert : Sorted.insert node (upwards spare window fresh) =
      Sorted.insert node (fresh.drop (fresh.length - spare)) ++
        window.take (window.length - spare) := by
    rw [upwards, Nat.min_eq_right hfresh]
    exact Sorted.insert_append_of_below fun other hother =>
      hbelow other (List.mem_of_mem_take hother)
  have hne : window.take (window.length - spare) ≠ [] :=
    List.ne_nil_of_length_pos (by rw [List.length_take]; omega)
  have hne' : Sorted.insert node (fresh.drop (fresh.length - spare)) ≠ [] :=
    List.ne_nil_of_length_pos (by rw [Sorted.length_insert]; omega)
  have hcount : window.length - spare = window.length - spare - 1 + 1 := by omega
  rw [hinsert]
  refine ⟨?_, ?_⟩
  · rw [lastOf_append hne]
    conv => lhs; rw [hcount]
    exact lastOf_take _
  · rw [List.tail_append_of_ne_nil hne', Sorted.tail_insert_drop hascending hnew (by omega),
      upwards, Sorted.length_insert, Nat.min_eq_right (by omega),
      Nat.sub_add_comm hfresh]

/-- The nodes of the list behind some node are above it. -/
theorem getElem_lt_of_mem_drop (hwindow : window.Pairwise (· < ·)) {index count : Nat}
    (hindex : index < window.length) (hcount : index < count) (hnode : node ∈ window.drop count) :
    window.get ⟨index, hindex⟩ < node := by
  refine Sorted.take_lt_drop hwindow (n := count) ?_ hnode
  rw [List.mem_take_iff_getElem]
  exact ⟨index, by omega, rfl⟩

namespace Upwards

theorem maxResult_eq (h : Upwards above window below spare replies cache) :
    cache.maxResult =
      window.get ⟨window.length - spare - 1, (List.getElem?_eq_some_iff.mp h.maxResult).1⟩ :=
  (List.getElem?_eq_some_iff.mp h.maxResult).2.symm

theorem maxResult_mem (h : Upwards above window below spare replies cache) :
    cache.maxResult ∈ window :=
  List.mem_of_getElem? h.maxResult

theorem maxNode_mem (h : Upwards above window below spare replies cache) :
    cache.trainNodes.maxNode ∈
      window.take (window.length - min (repliesAbove window replies).length spare) := by
  have hne := upwards_end_ne_nil (repliesAbove window replies) h.spare_lt
  rw [ResultList.maxNode, h.list.nodes, upwards, lastOf_append hne]
  exact lastOf_mem hne

theorem length_le (h : Upwards above window below spare replies cache) :
    (upwards spare window (repliesAbove window replies)).length = cache.cacheMaxSize :=
  (upwards_length h.spare_lt).trans h.size

theorem known_concat (h : Upwards above window below spare replies cache)
    (hnode : node ∈ above ++ window ++ below) :
    ∀ other ∈ replies ++ [node], other ∈ above ++ window ++ below := by
  intro other hother
  rcases List.mem_append.mp hother with hother | hother
  · exact h.known other hother
  · rw [List.mem_singleton.mp hother]
    exact hnode

/-- The search stays the same while the list changes. -/
theorem of_list (h : Upwards above window below spare replies cache)
    (hnode : node ∈ above ++ window ++ below) {list : ResultList}
    (hlist : HoldsUpwards above window below spare
      (repliesBelow window (replies ++ [node])).length
      (repliesAbove window (replies ++ [node])) list) :
    Upwards above window below spare (replies ++ [node]) (cache.withTrainNodes list) :=
  ⟨h.size, h.minResult, h.maxResult, h.spare_pos, h.spare_lt, h.known_concat hnode, hlist⟩

/-- A node from below the list is counted. -/
theorem reply_below (hlayout : Layout above window below)
    (h : Upwards above window below spare replies cache) (hnode : node ∈ below)
    (hnew : node ∉ replies) :
    ∃ list, cache.resultCallback node = cache.withTrainNodes list ∧
      Upwards above window below spare (replies ++ [node]) (cache.withTrainNodes list) := by
  have hall : node ∈ above ++ window ++ below := by simp [hnode]
  have habove : node ∉ above := fun habove => Nat.lt_asymm
    (hlayout.above_lt_window habove (firstOf_mem hlayout.nonempty))
    (hlayout.window_lt_below (firstOf_mem hlayout.nonempty) hnode)
  have hmax : cache.trainNodes.maxNode < node :=
    hlayout.window_lt_below (List.mem_of_mem_take h.maxNode_mem) hnode
  have hlimit : cache.maxResult < node := hlayout.window_lt_below h.maxResult_mem hnode
  have hlast := (hlayout.mem_below_iff hall).mp hnode
  have hnodes : node ∉ upwards spare window (repliesAbove window replies) := by
    intro hmem
    rcases List.mem_append.mp hmem with hmem | hmem
    · exact hnew ((mem_repliesAbove hlayout h.known).mp (List.mem_of_mem_drop hmem)).1
    · exact Nat.lt_irrefl _ (hlayout.window_lt_below (List.mem_of_mem_take hmem) hnode)
  have hcount := repliesBelow_length_le hlayout (h.known_concat hall)
  have hfresh := repliesAbove_length_le hlayout h.known
  have hfew := hlayout.few
  rw [repliesBelow_concat hlayout hall hnew, if_pos hnode, Sorted.length_insert] at hcount
  obtain ⟨list, heq, hlist⟩ := resultCallback_rejected h.list (Nat.le_of_eq h.length_le)
    (hlayout.ids node hall).1 hnodes (not_accepts_of_gt hmax hlimit)
  rw [h.minResult, if_neg fun hc => Nat.not_lt_zero node hc.1, if_pos ⟨hlimit, hlast⟩,
    inc16_of_lt (by omega)] at hlist
  refine ⟨list, heq, h.of_list hall ?_⟩
  rw [repliesBelow_concat hlayout hall hnew, if_pos hnode, repliesAbove_concat hlayout hall hnew,
    if_neg habove, Sorted.length_insert, HoldsUpwards, Nat.add_right_comm]
  exact hlist

/-- A node of the old list is known, or it was pushed out and it is counted already. -/
theorem reply_window (hlayout : Layout above window below)
    (h : Upwards above window below spare replies cache) (hnode : node ∈ window)
    (hnew : node ∉ replies) :
    ∃ list, cache.resultCallback node = cache.withTrainNodes list ∧
      Upwards above window below spare (replies ++ [node]) (cache.withTrainNodes list) := by
  have hall : node ∈ above ++ window ++ below := by simp [hnode]
  have hbelow : node ∉ below := fun hbelow =>
    Nat.lt_irrefl _ (hlayout.window_lt_below hnode hbelow)
  have habove : node ∉ above := fun habove =>
    Nat.lt_irrefl _ (hlayout.above_lt_window habove hnode)
  have hkeeps : ∀ list, HoldsUpwards above window below spare
      (repliesBelow window replies).length (repliesAbove window replies) list →
      Upwards above window below spare (replies ++ [node]) (cache.withTrainNodes list) := by
    intro list hlist
    refine h.of_list hall ?_
    rw [repliesAbove_concat hlayout hall hnew, if_neg habove,
      repliesBelow_concat hlayout hall hnew, if_neg hbelow]
    exact hlist
  by_cases hknown : node ∈ upwards spare window (repliesAbove window replies)
  · exact ⟨cache.trainNodes, resultCallback_known (h.list.nodes ▸ hknown), hkeeps _ h.list⟩
  have hdrop : node ∈
      window.drop (window.length - min (repliesAbove window replies).length spare) := by
    rw [← List.take_append_drop (window.length - min (repliesAbove window replies).length spare)
      window, List.mem_append] at hnode
    exact hnode.resolve_left fun htake => hknown (List.mem_append_right _ htake)
  have hmax := Sorted.take_lt_drop hlayout.window_ascending h.maxNode_mem hdrop
  have hspare := h.spare_lt
  have hlimit : cache.maxResult < node := by
    rw [h.maxResult_eq]
    exact getElem_lt_of_mem_drop hlayout.window_ascending _ (by omega) hdrop
  obtain ⟨list, heq, hlist⟩ := resultCallback_rejected h.list (Nat.le_of_eq h.length_le)
    (hlayout.ids node hall).1 hknown (not_accepts_of_gt hmax hlimit)
  rw [if_neg fun hc => Nat.not_lt.mpr (firstOf_le hlayout.window_ascending hnode) hc.2,
    if_neg fun hc => Nat.not_lt.mpr (le_lastOf hlayout.window_ascending hnode) hc.2] at hlist
  exact ⟨list, heq, hkeeps list hlist⟩

/-- The limit of the search is not the last of all nodes, so that the search counts as upwards. -/
theorem scrollingDown_eq (hlayout : Layout above window below)
    (h : Upwards above window below spare replies cache) : cache.scrollingDown = false := by
  have hspare := h.spare_lt
  have hpos := h.spare_pos
  have hlt : cache.maxResult < kMaxNode := by
    have hlast : window.get ⟨window.length - 1, by omega⟩ ≤ kMaxNode :=
      (hlayout.ids _ (by simp)).2
    refine Nat.lt_of_lt_of_le ?_ hlast
    rw [h.maxResult_eq]
    exact List.pairwise_iff_getElem.mp hlayout.window_ascending _ _ _ _ (by omega)
  rw [scrollingDown, if_neg (Nat.not_le.mpr hlt), if_pos (Nat.le_of_eq h.minResult)]

/-- A node from above the list pushes out the last node to spare, or the first one. -/
theorem reply_above (hlayout : Layout above window below)
    (h : Upwards above window below spare replies cache) (hnode : node ∈ above)
    (hnew : node ∉ replies) :
    ∃ list, cache.resultCallback node = cache.withTrainNodes list ∧
      Upwards above window below spare (replies ++ [node]) (cache.withTrainNodes list) := by
  have hall : node ∈ above ++ window ++ below := by simp [hnode]
  have hwindow : ∀ other ∈ window, node < other := fun other hother =>
    hlayout.above_lt_window hnode hother
  have hbelow : node ∉ below := fun hbelow => Nat.lt_asymm
    (hwindow _ (firstOf_mem hlayout.nonempty))
    (hlayout.window_lt_below (firstOf_mem hlayout.nonempty) hbelow)
  have hid := hlayout.ids node hall
  have hfirst := (hlayout.mem_above_iff hall).mp hnode
  have hlast : ¬ lastOf window < node := Nat.lt_asymm (hwindow _ (lastOf_mem hlayout.nonempty))
  have haccepts : cache.Accepts node := by
    refine .inr ⟨?_, Nat.le_of_lt (hwindow _ h.maxResult_mem)⟩
    rw [h.minResult]
    exact Nat.zero_le node
  have hfresh : node ∉ repliesAbove window replies := fun hmem =>
    hnew ((mem_repliesAbove hlayout h.known).mp hmem).1
  have hnodes : node ∉ upwards spare window (repliesAbove window replies) := by
    intro hmem
    rcases List.mem_append.mp hmem with hmem | hmem
    · exact hfresh (List.mem_of_mem_drop hmem)
    · exact Nat.lt_irrefl _ (hwindow _ (List.mem_of_mem_take hmem))
  have hcount := repliesAbove_length_le hlayout (h.known_concat hall)
  have hseen := repliesBelow_length_le hlayout h.known
  have hfew := hlayout.few
  have hspare := h.spare_lt
  rw [repliesAbove_concat hlayout hall hnew, if_pos hnode, Sorted.length_insert] at hcount
  by_cases hroom : (repliesAbove window replies).length < spare
  · obtain ⟨hend, hinit⟩ := upwards_insert_room hspare hroom hwindow
    have hlt : cache.maxResult <
        lastOf (Sorted.insert node (upwards spare window (repliesAbove window replies))) := by
      rw [hend, h.maxResult_eq]
      exact List.pairwise_iff_getElem.mp hlayout.window_ascending _ _ _ _ (by omega)
    obtain ⟨list, heq, hlist⟩ := resultCallback_pushesLast h.list h.length_le hid.1 hnodes
      haccepts (by rw [h.minResult]; exact Nat.zero_le _) (.inl hlt)
    rw [if_pos hfirst, if_neg hlast, hinit, dec16_of_pos (by omega) (by omega),
      inc16_of_lt (by omega), inc16_of_lt (by omega)] at hlist
    refine ⟨list, heq, h.of_list hall ?_⟩
    rw [repliesAbove_concat hlayout hall hnew, if_pos hnode,
      repliesBelow_concat hlayout hall hnew, if_neg hbelow, HoldsUpwards, Sorted.length_insert]
    exact hlist.congr (by omega) (by omega) (by omega) (by omega)
  · have hfull := Nat.not_lt.mp hroom
    obtain ⟨hend, htail⟩ := upwards_insert_full hspare hfull hwindow
      (Sorted.collect_ascending _) hfresh
    obtain ⟨list, heq, hlist⟩ := resultCallback_pushesFirst h.list h.length_le hid.1 hnodes
      haccepts (.inr ⟨by rw [hend, h.maxResult_eq], h.scrollingDown_eq hlayout⟩)
    rw [if_pos hfirst, if_neg hlast, htail, dec16_of_pos (by omega) (by omega),
      inc16_of_lt (by omega), inc16_of_lt (by omega)] at hlist
    refine ⟨list, heq, h.of_list hall ?_⟩
    rw [repliesAbove_concat hlayout hall hnew, if_pos hnode,
      repliesBelow_concat hlayout hall hnew, if_neg hbelow, HoldsUpwards, Sorted.length_insert]
    exact hlist.congr (by omega) (by omega) (by omega) (by omega)

/-- One reply to a search upwards. -/
theorem resultCallback (hlayout : Layout above window below)
    (h : Upwards above window below spare replies cache)
    (hnode : node ∈ above ++ window ++ below) (hnew : node ∉ replies) :
    ∃ list, cache.resultCallback node = cache.withTrainNodes list ∧
      Upwards above window below spare (replies ++ [node]) (cache.withTrainNodes list) := by
  rcases List.mem_append.mp hnode with hnode | hbelow
  · rcases List.mem_append.mp hnode with habove | hwindow
    · exact h.reply_above hlayout habove hnew
    · exact h.reply_window hlayout hwindow hnew
  · exact h.reply_below hlayout hbelow hnew

/-- The list after all replies. -/
theorem complete (hlayout : Layout above window below)
    (h : Upwards above window below spare replies cache)
    (hreplies : ∀ node, node ∈ replies ↔ node ∈ above ++ window ++ below) :
    HoldsUpwards above window below spare below.length above cache.trainNodes := by
  have hlist := h.list
  rw [repliesAbove_complete hlayout hreplies, repliesBelow_complete hlayout hreplies] at hlist
  exact hlist

end Upwards

end upwards

/-- The list is a run of the nodes, as long as the cache allows, and the counters say how many nodes
are above and below it. -/
structure Settled (all : List Nat) (above window below : List Nat) (cache : TrainNodeInfoCache) :
    Prop where
  parts : all = above ++ window ++ below
  size : window.length = min all.length cache.cacheMaxSize
  list : ∃ min max, cache.trainNodes.Holds window above.length below.length above.length
    below.length min max

section settled

variable {all above window below replies : List Nat} {cache : TrainNodeInfoCache}

/-- A first search settles the list at the start. -/
theorem TrainNodeInfoCache.FirstSearch.settled (h : cache.FirstSearch replies) (hreplies : replies.Nodup)
    (hcollect : Sorted.collect replies = all) (hfew : all.length < 2 ^ 16) :
    Settled all [] (all.take cache.cacheMaxSize) (all.drop cache.cacheMaxSize) cache := by
  have hclipped : clipped cache.cacheMaxSize replies = (all.drop cache.cacheMaxSize).length := by
    rw [clipped, clippedRepetitions_eq_zero hreplies, hcollect, List.length_drop, Nat.add_zero]
  have hlist := h.list
  rw [hclipped, Nat.mod_eq_of_lt (by rw [List.length_drop]; omega), hcollect] at hlist
  refine ⟨by simp, ?_, _, _, hlist⟩
  rw [List.length_take, Nat.min_comm]

/-- A search downwards moves the list down. -/
theorem Downwards.settled {limit : Nat} (hlayout : Layout above window below)
    (h : Downwards above window below limit replies cache)
    (hreplies : ∀ node, node ∈ replies ↔ node ∈ above ++ window ++ below) :
    Settled (above ++ window ++ below) (above ++ window.take (min below.length limit))
      (downwards limit window below) (below.drop limit) cache := by
  have hlimit := h.limit_lt
  have hsize := h.size
  refine ⟨?_, ?_, firstOf window, lastOf window, ?_⟩
  · simp only [downwards, List.append_assoc]
    rw [List.take_append_drop, ← List.append_assoc (window.take _), List.take_append_drop]
  · rw [downwards_length (Nat.le_of_lt hlimit), List.length_append, List.length_append]
    omega
  · have hlist := h.complete hlayout hreplies
    rw [List.length_append, List.length_take, List.length_drop]
    exact hlist.congr (by omega) (by omega) (by omega) (by omega)

/-- A search upwards moves the list up. -/
theorem Upwards.settled {spare : Nat} (hlayout : Layout above window below)
    (h : Upwards above window below spare replies cache)
    (hreplies : ∀ node, node ∈ replies ↔ node ∈ above ++ window ++ below) :
    Settled (above ++ window ++ below) (above.take (above.length - spare))
      (upwards spare window above)
      (window.drop (window.length - min above.length spare) ++ below) cache := by
  have hspare := h.spare_lt
  have hsize := h.size
  refine ⟨?_, ?_, firstOf window, lastOf window, ?_⟩
  · simp only [upwards, List.append_assoc]
    rw [← List.append_assoc (above.take _), List.take_append_drop, ← List.append_assoc (window.take _),
      List.take_append_drop]
  · rw [upwards_length hspare, List.length_append, List.length_append]
    omega
  · have hlist := h.complete hlayout hreplies
    rw [List.length_append, List.length_take, List.length_drop]
    exact hlist.congr (by omega) (by omega) (by omega) (by omega)

/-- What the display changes does not matter. -/
theorem Settled.congr {cache' : TrainNodeInfoCache} (h : Settled all above window below cache)
    (hsize : cache'.cacheMaxSize = cache.cacheMaxSize)
    (hlist : ∃ offset, cache'.trainNodes = { cache.trainNodes with resultOffset := offset }) :
    Settled all above window below cache' := by
  obtain ⟨min, max, hholds⟩ := h.list
  obtain ⟨offset, heq⟩ := hlist
  refine ⟨h.parts, hsize ▸ h.size, min, max, ?_⟩
  rw [heq]
  exact hholds.offset

/-- A list behind which nodes were clipped is full. -/
theorem Settled.full (h : Settled all above window below cache)
    (hclipped : above.length ≠ 0 ∨ below.length ≠ 0) : window.length = cache.cacheMaxSize := by
  have hsize := h.size
  rw [h.parts, List.length_append, List.length_append] at hsize
  omega

theorem Settled.layout (h : Settled all above window below cache) (hall : all.Pairwise (· < ·))
    (hids : ∀ node ∈ all, IsNodeId node) (hfew : all.length < 2 ^ 16) (hnonempty : window ≠ []) :
    Layout above window below := by
  have hparts := h.parts
  subst hparts
  refine ⟨hall, hids, ?_, hnonempty⟩
  rw [List.length_append, List.length_append] at hfew
  exact hfew

end settled

end OpenmrnCue.CommandStation
