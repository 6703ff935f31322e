import OpenmrnCue.Library.Trace
import Mathlib.Algebra.Order.Ring.Int

/-! The memory space of the train configurations: `TrainConfigSpace` of `AllTrainNodes.cxx`.  One
object serves the trains of the command station.  `set_node` looks up the train of a node and where
the configuration of that train starts in the file, and it keeps both for the reads and writes that
follow. It keeps the train before it knows whether the train has a place in the file. -/

namespace OpenmrnCue.CommandStation

variable {Node : Type}

/-- `AllTrainNodes::Impl`, as far as `TrainConfigSpace` reads it. -/
structure Impl (Node : Type) where
  id : Int
  node : Node
deriving DecidableEq, Repr

/-- `AllTrainNodes`: the trains, and for the ids with an entry in the database (`get_entry`) the
`file_offset` of that entry. -/
structure TrainNodes (Node : Type) where
  trains : List (Impl Node)
  entryOffset : Int → Option Int

namespace TrainNodes

variable [DecidableEq Node] (nodes : TrainNodes Node)

/-- `find_node`. -/
def findNode (node : Node) : Option (Impl Node) := nodes.trains.find? (·.node = node)

/-- `file_offset()` of the database entry of a train. -/
def implOffset (impl : Impl Node) : Option Nat :=
  match nodes.entryOffset impl.id with
  | none => none
  | some offset => if offset < 0 then none else some offset.toNat

/-- `file_offset()` of the database entry of a node, if it has one that is not negative. -/
def fileOffset (node : Node) : Option Nat := (nodes.findNode node).bind nodes.implOffset

theorem findNode_node {nodes : TrainNodes Node} {node : Node} {impl : Impl Node}
    (h : nodes.findNode node = some impl) : impl.node = node := by
  simpa using List.find?_some h

end TrainNodes

/-- `TrainConfigSpace`: `impl_` and `offset_`. -/
structure TrainConfigSpace (Node : Type) where
  impl : Option (Impl Node)
  offset : Nat
deriving DecidableEq, Repr

namespace TrainConfigSpace

/-- The position in the file that `read` and `write` access: `address_t` and `offset_` have 32 bits.
-/
def position (space : TrainConfigSpace Node) (address : Nat) : Nat :=
  (address + space.offset) % 2 ^ 32

/-- The calls to the memory space. -/
inductive Call (Node : Type) where
  | setNode (node : Node)
  | access (address : Nat)
deriving DecidableEq, Repr

/-- The memory space and the node of the last `set_node`, if that returned true. -/
structure Access (Node : Type) where
  space : TrainConfigSpace Node
  granted : Option Node
deriving DecidableEq, Repr

/-- Before the first call; `offset_` is not initialised. -/
def start (offset : Nat) : Access Node := ⟨⟨none, offset⟩, none⟩

/-- The node of the last `set_node`. -/
def lastNode (calls : List (Call Node)) : Option Node :=
  calls.foldl (fun last call => match call with | .setNode node => some node | .access _ => last) none

@[simp] theorem lastNode_nil : lastNode ([] : List (Call Node)) = none := rfl

@[simp] theorem lastNode_setNode (calls : List (Call Node)) (node : Node) :
    lastNode (calls ++ [.setNode node]) = some node := by
  rw [lastNode, List.foldl_append]
  rfl

@[simp] theorem lastNode_access (calls : List (Call Node)) (address : Nat) :
    lastNode (calls ++ [.access address]) = lastNode calls := by
  rw [lastNode, List.foldl_append]
  rfl

variable [DecidableEq Node] (nodes : TrainNodes Node)

/-- `set_node`. -/
def setNode (space : TrainConfigSpace Node) (node : Node) : Bool × TrainConfigSpace Node :=
  if space.impl.map Impl.node = some node then (true, space)
  else
    match nodes.findNode node with
    | none => (false, { space with impl := none })
    | some impl =>
      match nodes.implOffset impl with
      | none => (false, { space with impl := some impl })
      | some offset => (true, ⟨some impl, offset % 2 ^ 32⟩)

/-- One call. -/
def step (s : Access Node) : Call Node → Option (Access Node)
  | .setNode node =>
    some ⟨(setNode nodes s.space node).2, if (setNode nodes s.space node).1 then some node else none⟩
  | .access _ => some s

/-- `set_node` returns true for nodes with a place in the file only, and an access is to the place
of the node that it was returned for. -/
def InPlace (s : Access Node) : Call Node → Prop
  | .setNode node => (setNode nodes s.space node).1 = true → (nodes.fileOffset node).isSome
  | .access address => ∀ node, s.granted = some node →
    ∃ offset, nodes.fileOffset node = some offset ∧ s.space.position address = address + offset

/-- No second `set_node` in a row for a train without a place in the file, and no address that
leaves the 32 bits. -/
def Regular (past : List (Call Node)) : Call Node → Prop
  | .setNode node => lastNode past = some node → (nodes.findNode node).isSome →
    (nodes.fileOffset node).isSome
  | .access address => ∀ node offset, lastNode past = some node →
    nodes.fileOffset node = some offset → address + offset < 2 ^ 32

/-- The kept train is that of the last `set_node`.  If that train has a place in the file, `offset_`
is this place, and `set_node` returned true. -/
structure Kept (past : List (Call Node)) (s : Access Node) : Prop where
  impl : s.space.impl = (lastNode past).bind nodes.findNode
  offset : ∀ node offset, lastNode past = some node → nodes.fileOffset node = some offset →
    s.space.offset = offset % 2 ^ 32 ∧ s.granted = some node

variable {nodes}

theorem kept_start (offset : Nat) : Kept nodes [] (start offset) :=
  ⟨rfl, by simp⟩

/-- `set_node` takes the train it kept exactly if the call is a repetition for a train. -/
theorem Kept.same_iff {past : List (Call Node)} {s : Access Node} (h : Kept nodes past s) (node : Node) :
    s.space.impl.map Impl.node = some node ↔
      lastNode past = some node ∧ (nodes.findNode node).isSome := by
  rw [h.impl]
  constructor
  · intro hsame
    obtain ⟨impl, himpl, rfl⟩ := Option.map_eq_some_iff.mp hsame
    obtain ⟨last, hlast, hfind⟩ := Option.bind_eq_some_iff.mp himpl
    obtain rfl := TrainNodes.findNode_node hfind
    exact ⟨hlast, by rw [hfind]; rfl⟩
  · rintro ⟨hlast, hfound⟩
    obtain ⟨impl, hfind⟩ := Option.isSome_iff_exists.mp hfound
    rw [hlast, Option.bind_some, hfind, Option.map_some, TrainNodes.findNode_node hfind]

theorem Kept.of_setNode {past : List (Call Node)} {node : Node} {s : Access Node}
    (himpl : s.space.impl = nodes.findNode node)
    (hoffset : ∀ offset, nodes.fileOffset node = some offset →
      s.space.offset = offset % 2 ^ 32 ∧ s.granted = some node) :
    Kept nodes (past ++ [.setNode node]) s := by
  refine ⟨by rw [himpl, lastNode_setNode, Option.bind_some], fun other offset hother => ?_⟩
  obtain rfl : node = other := by simpa using hother
  exact hoffset offset

theorem Kept.step {past : List (Call Node)} {call : Call Node} {s t : Access Node}
    (h : Kept nodes past s) (hstep : step nodes s call = some t) : Kept nodes (past ++ [call]) t := by
  cases call with
  | access address =>
    cases hstep
    exact ⟨by simpa using h.impl, by simpa using h.offset⟩
  | setNode node =>
    cases hstep
    by_cases hsame : s.space.impl.map Impl.node = some node
    · obtain ⟨hlast, -⟩ := (h.same_iff node).mp hsame
      have hset : setNode nodes s.space node = (true, s.space) := if_pos hsame
      rw [hset]
      refine .of_setNode (by rw [h.impl, hlast, Option.bind_some]) fun offset hoffset => ?_
      exact ⟨(h.offset node offset hlast hoffset).1, rfl⟩
    · rw [setNode, if_neg hsame]
      cases hfind : nodes.findNode node with
      | none => exact .of_setNode hfind.symm (by simp [TrainNodes.fileOffset, hfind])
      | some impl =>
        cases hoffset : nodes.implOffset impl with
        | none =>
          exact .of_setNode (by simp [hfind, hoffset]) (by simp [TrainNodes.fileOffset, hfind, hoffset])
        | some offset =>
          exact .of_setNode (by simp [hfind, hoffset]) (by simp [TrainNodes.fileOffset, hfind, hoffset])

/-- What `set_node` returns. -/
theorem Kept.setNode_eq_true_iff {past : List (Call Node)} {s : Access Node} (h : Kept nodes past s)
    (node : Node) : (setNode nodes s.space node).1 = true ↔
      (nodes.fileOffset node).isSome ∨ lastNode past = some node ∧ (nodes.findNode node).isSome := by
  rw [← h.same_iff node]
  by_cases hsame : s.space.impl.map Impl.node = some node
  · simp [setNode, hsame]
  · rw [setNode, if_neg hsame]
    cases hfind : nodes.findNode node with
    | none => simp [TrainNodes.fileOffset, hfind, hsame]
    | some impl => cases hoffset : nodes.implOffset impl <;> simp [TrainNodes.fileOffset, hfind, hoffset, hsame]

/-- In a regular run, the node for which `set_node` returned true is the last one, and it has a
place in the file. -/
def Granted (nodes : TrainNodes Node) (past : List (Call Node)) (s : Access Node) : Prop :=
  ∀ node, s.granted = some node → lastNode past = some node ∧ (nodes.fileOffset node).isSome

theorem Granted.step {past : List (Call Node)} {call : Call Node} {s t : Access Node}
    (hkept : Kept nodes past s) (h : Granted nodes past s) (hregular : Regular nodes past call)
    (hstep : step nodes s call = some t) : Granted nodes (past ++ [call]) t := by
  cases call with
  | access address =>
    cases hstep
    simpa [Granted] using h
  | setNode node =>
    cases hstep
    intro other hother
    by_cases htrue : (setNode nodes s.space node).1 = true
    · obtain rfl : node = other := by simpa [htrue] using hother
      refine ⟨by simp, ?_⟩
      rcases (hkept.setNode_eq_true_iff node).mp htrue with hplace | ⟨hlast, hfound⟩
      · exact hplace
      · exact hregular hlast hfound
    · simp [htrue] at hother

theorem kept_of_run {calls : List (Call Node)} {offset : Nat} {s : Access Node}
    (hrun : Trace.run (step nodes) (start offset) calls = some s) : Kept nodes calls s :=
  Trace.invariant_of_step (kept_start offset) (fun _ _ _ _ h hstep => h.step hstep) hrun

/-- Along a run, accesses are to the place of the node in the file exactly if every call is regular.
-/
theorem accesses_inPlace_iff (nodes : TrainNodes Node) (offset : Nat) (calls : List (Call Node)) :
    Trace.EachStep (step nodes) (fun _ s call _ => InPlace nodes s call) (start offset) calls ↔
    Trace.EachStep (step nodes) (fun past _ call _ => Regular nodes past call) (start offset) calls := by
  constructor
  · intro hplace past call future s t heq hrun hstep
    have hkept := kept_of_run hrun
    have hcall := hplace past call future s t heq hrun hstep
    cases call with
    | setNode node =>
      exact fun hlast hfound => hcall ((hkept.setNode_eq_true_iff node).mpr (.inr ⟨hlast, hfound⟩))
    | access address =>
      intro node place hlast hoffset
      obtain ⟨hspace, hgranted⟩ := hkept.offset node place hlast hoffset
      obtain ⟨place', hplace', hposition⟩ := hcall node hgranted
      obtain rfl : place = place' := Option.some.inj (hoffset.symm.trans hplace')
      have hlt : s.space.position address < 2 ^ 32 := Nat.mod_lt _ (by decide)
      omega
  · intro hregular past call future s t heq hrun hstep
    have hkept := kept_of_run hrun
    have hgranted : Granted nodes past s := by
      have hpast := (heq ▸ hregular).of_append
      refine Trace.invariant (I := Granted nodes) (fun node hnode => by cases hnode) ?_ hpast hrun
      exact fun past call s t hrun h hcall hstep => h.step (kept_of_run hrun) hcall hstep
    have hcall := hregular past call future s t heq hrun hstep
    cases call with
    | setNode node =>
      intro htrue
      rcases (hkept.setNode_eq_true_iff node).mp htrue with hplace | ⟨hlast, hfound⟩
      · exact hplace
      · exact hcall hlast hfound
    | access address =>
      intro node hnode
      obtain ⟨hlast, hplace⟩ := hgranted node hnode
      obtain ⟨place, hoffset⟩ := Option.isSome_iff_exists.mp hplace
      have hspace := (hkept.offset node place hlast hoffset).1
      have hsmall := hcall node place hlast hoffset
      refine ⟨place, hoffset, ?_⟩
      rw [position, hspace, Nat.mod_eq_of_lt (Nat.lt_of_le_of_lt (Nat.le_add_left _ _) hsmall),
        Nat.mod_eq_of_lt hsmall]

/-- A train of the file at offset 100, and a train that was allocated. -/
def twoTrains : TrainNodes Nat where
  trains := [⟨0, 10⟩, ⟨1, 11⟩]
  entryOffset id := [(0, 100), (1, -1)].lookup id

/-- The configuration of the first train, and then `set_node` twice for the second one: the accesses
that follow go to the configuration of the first train. -/
theorem second_setNode_returns_true :
    let calls := [.setNode 10, .setNode 11, .setNode 11, .access 0]
    (∃ s, Trace.run (step twoTrains) (start 0) calls = some s ∧ s.granted = some 11 ∧
      s.space.position 0 = 100) ∧ twoTrains.fileOffset 11 = none ∧
    ¬ Trace.EachStep (step twoTrains) (fun _ s call _ => InPlace twoTrains s call) (start 0) calls := by
  refine ⟨⟨_, rfl, rfl, rfl⟩, rfl, fun hplace => ?_⟩
  have hcall := hplace [.setNode 10, .setNode 11] (.setNode 11) [.access 0] _ _ rfl rfl rfl
  exact absurd (hcall rfl) (by decide)

end TrainConfigSpace

end OpenmrnCue.CommandStation
