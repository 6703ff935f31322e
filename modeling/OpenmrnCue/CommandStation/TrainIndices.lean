import OpenmrnCue.CommandStation.TrainNodes

/-! Which entry of the database belongs to which train.  `Impl::id` names the entry of the train's
own node after each update, and so the configuration of a train is that of its own stored entry.
The train search goes by the position of a train instead, which is the position of its entry only
while no train but the last ones is deleted. -/

namespace OpenmrnCue.CommandStation

open FindProtocolDefs DccMode

variable {n : Nat} {traction : TractionDefs} {build : Build} {stored : StoredTrains n}

namespace AllTrainNodes

variable {s : AllTrainNodes n} {constLokdb : List TrainFields} {past : List (TrainsInput n)}

/-! ### The entry that a train is created for -/

/-- The id of a train is the index of an entry of its node. -/
def NamesEntry (traction : TractionDefs) (s : AllTrainNodes n) (impl : Impl Nat) : Prop :=
  ∃ (trainId : Nat) (entry : DbEntry n), impl.id = trainId ∧ s.entries[trainId]? = some entry ∧
    entry.tractionNode traction s.stored = impl.node

/-- An update names the entry of each train. -/
theorem namesEntry_updateConfig (traction : TractionDefs) (h : s.Regular build)
    (hnodup : s.nodeIds.Nodup) :
    ∀ impl ∈ (s.updateConfig traction build).trains,
      (s.updateConfig traction build).NamesEntry traction impl := by
  intro impl himpl
  obtain ⟨entry, hentry, hnode, _⟩ :=
    (mem_nodeIds_updateConfig h).mp (List.mem_map_of_mem himpl)
  obtain ⟨k, hk, hget⟩ := List.mem_iff_getElem.mp hentry
  have hitem : (entry, k) ∈ s.entries.zipIdx := by
    rw [List.mk_mem_zipIdx_iff_getElem?, List.getElem?_eq_getElem hk, hget]
  obtain ⟨⟨other, trainId⟩, hother, hsame, hstamp⟩ :=
    Reconcile.exists_stamp (keyed traction s) h.create_node (nodup_kept hnodup)
      (fun item x => x.id = item.2) (fun _ _ => rfl)
      (fun item x hmake => by
        obtain ⟨type, _, rfl⟩ := Option.map_eq_some_iff.mp hmake
        rfl)
      impl himpl ⟨(entry, k), hitem, hnode⟩
  exact ⟨trainId, other, hstamp, List.mk_mem_zipIdx_iff_getElem?.mp hother, hsame⟩

/-! ### The configuration of a train -/

/-- The trains as `TrainConfigSpace` sees them: `get_entry` takes an `unsigned`, and
`file_offset` is that of the stored entry `i`, or -1 for an entry that is not stored. -/
def trainNodes (fileOffset : Fin n → Nat) (s : AllTrainNodes n) : TrainNodes Nat where
  trains := s.trains
  entryOffset id := (s.entries[(id % 2 ^ 32).toNat]?).map fun entry =>
    match entry with
    | .file i => fileOffset i
    | .compiledIn _ => -1
    | .allocated _ => -1

/-- Where a train is configured is where a stored entry of its own node is. -/
theorem fileOffset_of_namesEntry {fileOffset : Fin n → Nat} {node offset : Nat}
    (h : ∀ impl ∈ s.trains, s.NamesEntry traction impl) (hsize : s.entries.length < 2 ^ 32)
    (hoffset : (s.trainNodes fileOffset).fileOffset node = some offset) :
    ∃ i, .file i ∈ s.entries ∧ fileOffset i = offset ∧
      (DbEntry.file i).tractionNode traction s.stored = node := by
  obtain ⟨impl, hfind, himpl⟩ := Option.bind_eq_some_iff.mp hoffset
  have hnode := TrainNodes.findNode_node hfind
  obtain ⟨trainId, entry, hid, hget, hentry⟩ := h impl (List.mem_of_find?_eq_some hfind)
  obtain ⟨hlt, _⟩ := List.getElem?_eq_some_iff.mp hget
  have hindex : (impl.id % 2 ^ 32).toNat = trainId := by omega
  rw [TrainNodes.implOffset, trainNodes] at himpl
  simp only [hindex, hget, Option.map_some] at himpl
  cases entry with
  | compiledIn fields => simp at himpl
  | allocated fields => simp at himpl
  | file i =>
    refine ⟨i, List.mem_of_getElem? hget, by simpa using himpl, hentry.trans hnode⟩

/-- In every proper history, after each update the entry that is looked up for a train is one of its
own node, and its configuration is read from and written to such a stored entry. -/
theorem entry_of_own_node {initialLoad : Bool} (hlokdb : ProperLokdb traction constLokdb stored)
    (heach : Trace.EachStep (next traction build)
      (fun past s input _ => s.Proper traction build constLokdb past input)
      (construct traction build constLokdb stored) (past ++ [.update initialLoad]))
    (hrun : Trace.run (next traction build) (construct traction build constLokdb stored)
      (past ++ [.update initialLoad]) = some s) (hsize : s.entries.length < 2 ^ 32) :
    (∀ impl ∈ s.trains, s.NamesEntry traction impl) ∧
      ∀ (fileOffset : Fin n → Nat) (node offset : Nat),
        (s.trainNodes fileOffset).fileOffset node = some offset →
        ∃ i, .file i ∈ s.entries ∧ fileOffset i = offset ∧
          (DbEntry.file i).tractionNode traction s.stored = node := by
  obtain ⟨before, hpast, hlast⟩ := Trace.run_concat_eq_some.mp hrun
  have hsettled := settled_of_run hlokdb heach.of_append hpast
  have hproper := heach.last hpast hlast
  cases hlast
  have hnames := namesEntry_updateConfig traction (hsettled.regular_load hproper initialLoad)
    hsettled.nodup
  exact ⟨hnames, fun fileOffset node offset => fileOffset_of_namesEntry hnames hsize⟩

theorem edited_train_named : ∃ s : AllTrainNodes 1,
    (∀ impl ∈ s.trains, s.NamesEntry sampleTraction impl) ∧
      (s.trainNodes fun _ => 100).fileOffset 0x060100000006 = some 100 := by
  exact ⟨_, (entry_of_own_node ⟨by decide, by decide⟩ sampleHistory_proper rfl (by decide)).1,
    by decide⟩

/-! ### The entry at the position of a train -/

/-- The nodes are those of the entries, in the same order. -/
def Aligned (traction : TractionDefs) (s : AllTrainNodes n) : Prop :=
  s.nodeIds = s.entries.map (DbEntry.tractionNode traction s.stored)

/-- The file has not been written since it was loaded. -/
def isLoaded (past : List (TrainsInput n)) : Bool :=
  past.foldl (fun loaded input =>
    match input with
    | .allocateNode _ _ => loaded
    | .write _ => false
    | .update _ => true) true

/-- An update deletes and creates nodes at the end only: the first `kept` nodes are those of the
first entries, the other nodes have no entry any more, and the other entries have new nodes and
drive modes for the track. -/
structure ChangesEnd (traction : TractionDefs) (s : AllTrainNodes n) (entries : List (DbEntry n)) :
    Prop where
  split : ∃ kept, s.nodeIds.take kept =
      (entries.take kept).map (DbEntry.tractionNode traction s.stored) ∧
    (∀ node ∈ s.nodeIds.drop kept, ∀ entry ∈ entries,
      entry.tractionNode traction s.stored ≠ node) ∧
    (∀ entry ∈ entries.drop kept, entry.Drives s.stored ∧
      entry.tractionNode traction s.stored ∉ s.nodeIds.take kept) ∧
    ((entries.drop kept).map (DbEntry.tractionNode traction s.stored)).Nodup

/-- What is asked of each thing that happens. -/
def Appends (traction : TractionDefs) (s : AllTrainNodes n) : TrainsInput n → Prop
  | .allocateNode driveType address => driveType ∈ isSupported.driveModes ∧ address < 2 ^ 16
  | .write _ => True
  | .update initialLoad => s.ChangesEnd traction (s.loadFromFile traction initialLoad).entries

theorem aligned_construct
    (hdrives : ∀ fields ∈ constLokdb, fields.address ≠ 0 → fields.mode ∈ isSupported.driveModes) :
    (construct traction build constLokdb stored).Aligned traction :=
  nodeIds_construct hdrives

theorem Aligned.allocateNode (h : s.Aligned traction) {driveType : DccMode} {address : Nat}
    (hmode : driveType ∈ isSupported.driveModes) (hfits : address < 2 ^ 16) :
    (s.step traction build (.allocateNode driveType address)).Aligned traction := by
  rw [step, allocateNode_of_driveModes hmode, Nat.mod_eq_of_lt hfits]
  rw [Aligned, nodeIds] at h ⊢
  rw [List.map_append, h, List.map_append]
  rfl

theorem kept_append {front back : List (Impl Nat)} (hsplit : s.trains = front ++ back)
    (hfront : ∀ impl ∈ front, ∃ entry ∈ s.entries,
      entry.tractionNode traction s.stored = impl.node)
    (hback : ∀ impl ∈ back, ∀ entry ∈ s.entries,
      entry.tractionNode traction s.stored ≠ impl.node) : s.kept traction = front := by
  rw [kept, hsplit]
  refine Reconcile.prune_append (fun impl himpl => findEntry_isSome.mpr (hfront impl himpl))
    fun impl himpl => ?_
  rw [← Bool.not_eq_true, findEntry_isSome]
  rintro ⟨entry, hentry, hnode⟩
  exact hback impl himpl entry hentry hnode

theorem map_tractionNode_zipIdx (entries : List (DbEntry n)) (k : Nat) :
    (entries.zipIdx k).map (fun item => item.1.tractionNode traction stored) =
      entries.map (DbEntry.tractionNode traction stored) := by
  conv_rhs => rw [← List.zipIdx_map_fst k entries]
  rw [List.map_map]
  rfl

/-- The second loop of `update_config` over some of the entries. -/
def supplied (traction : TractionDefs) (build : Build) (s : AllTrainNodes n)
    (trains : List (Impl Nat)) (items : List (DbEntry n × Nat)) : List (Impl Nat) :=
  Reconcile.supply (fun entry impl => impl.node = entry.1.tractionNode traction s.stored)
    (fun entry impl => { impl with id := entry.2 })
    (fun entry => entry.1.create traction build s.stored entry.2) trains items

/-- Such an update leaves the nodes in the order of the entries. -/
theorem ChangesEnd.aligned (h : s.ChangesEnd traction s.entries) :
    (s.updateConfig traction build).Aligned traction := by
  obtain ⟨kept, hfirst, hgone, hnew, hnodup⟩ := h.split
  have hkept : s.kept traction = s.trains.take kept := by
    refine kept_append (List.take_append_drop kept s.trains).symm (fun impl himpl => ?_)
      fun impl himpl entry hentry => ?_
    · have hnode : impl.node ∈ s.nodeIds.take kept := by
        rw [nodeIds, ← List.map_take]
        exact List.mem_map_of_mem himpl
      rw [hfirst] at hnode
      obtain ⟨entry, hentry, heq⟩ := List.mem_map.mp hnode
      exact ⟨entry, List.mem_of_mem_take hentry, heq⟩
    · refine hgone impl.node ?_ entry hentry
      rw [nodeIds, ← List.map_drop]
      exact List.mem_map_of_mem himpl
  have hkeys : (s.trains.take kept).map Impl.node =
      (s.entries.take kept).map (DbEntry.tractionNode traction s.stored) := by
    rw [List.map_take, ← nodeIds, hfirst]
  have hitems : s.entries.zipIdx =
      (s.entries.take kept).zipIdx ++
        (s.entries.drop kept).zipIdx (s.entries.take kept).length := by
    conv_lhs => rw [← List.take_append_drop kept s.entries, List.zipIdx_append, Nat.zero_add]
  have hpresent : (s.supplied traction build (s.trains.take kept)
      (s.entries.take kept).zipIdx).map Impl.node = (s.trains.take kept).map Impl.node :=
    Reconcile.map_key_supply_of_present (keyed traction s) fun item hitem => by
      rw [hkeys]
      exact List.mem_map_of_mem (List.fst_mem_of_mem_zipIdx hitem)
  have hcreated : (s.supplied traction build
      (s.supplied traction build (s.trains.take kept) (s.entries.take kept).zipIdx)
      ((s.entries.drop kept).zipIdx (s.entries.take kept).length)).map Impl.node = _ :=
    Reconcile.map_key_supply_of_new (keyed traction s)
      (fun item hitem => ⟨_, DbEntry.create_of_drives
        (hnew item.1 (List.fst_mem_of_mem_zipIdx hitem)).1, rfl⟩)
      (fun item hitem => by
        change _ ∉ (s.supplied traction build _ _).map Impl.node
        rw [hpresent, List.map_take]
        exact (hnew item.1 (List.fst_mem_of_mem_zipIdx hitem)).2)
      (by rw [map_tractionNode_zipIdx]; exact hnodup)
  have htrains : (s.updateConfig traction build).trains = s.createMissing traction build
      (s.trains.take kept) := by rw [← hkept]; rfl
  rw [Aligned, nodeIds, htrains, createMissing, hitems, Reconcile.supply_append]
  refine hcreated.trans ?_
  rw [hpresent, hkeys, map_tractionNode_zipIdx, ← List.map_append, List.take_append_drop]
  rfl

/-- When the first of two stored trains is edited, the other one takes its position. -/
example :
    let before : StoredTrains 2 := fun i => if i = 0 then ⟨5, dcc28⟩ else ⟨6, dcc28⟩
    let s := (construct sampleTraction .native [] before).step sampleTraction .native (.update true)
    let after : StoredTrains 2 := fun i => if i = 0 then ⟨7, dcc28⟩ else ⟨6, dcc28⟩
    let s := (s.step sampleTraction .native (.write after)).step sampleTraction .native
      (.update false)
    s.entries = [.file 0, .file 1] ∧ s.getTrainNodeId 0 = 0x060100000006 := by
  decide

end AllTrainNodes

end OpenmrnCue.CommandStation
