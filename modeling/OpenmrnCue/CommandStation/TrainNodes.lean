import OpenmrnCue.CommandStation.TrainDb
import Mathlib.Data.Fintype.Basic
import Mathlib.Tactic.MkIffOfInductiveProp

/-! Which train nodes there are.  After a configuration update these are the trains of the stored
entries, the compiled-in ones and those that have been allocated, once each, as long as no entry is
made a train without a proper address or lets go of a train that it has replaced. -/

namespace OpenmrnCue.CommandStation

open FindProtocolDefs DccMode

variable {n : Nat} {traction : TractionDefs} {build : Build} {stored : StoredTrains n}

/-! ### Trains of entries -/

namespace DbEntry

/-- The entry has a drive mode for the track. -/
def Drives (stored : StoredTrains n) (entry : DbEntry n) : Prop :=
  (entry.fields stored).mode ∈ isSupported.driveModes

instance (entry : DbEntry n) : Decidable (entry.Drives stored) :=
  inferInstanceAs (Decidable (_ ∈ _))

/-- The entry has a drive mode for which no train is created. -/
def Inert (build : Build) (stored : StoredTrains n) (entry : DbEntry n) : Prop :=
  isSupported build (entry.fields stored).mode = false

instance (entry : DbEntry n) : Decidable (entry.Inert build stored) :=
  inferInstanceAs (Decidable (_ = _))

end DbEntry

theorem trainType_of_driveModes {mode : DccMode} (h : mode ∈ isSupported.driveModes)
    (address : Nat) :
    trainType traction build mode address = some (dccModeToAddressType mode address) := by
  simp only [isSupported.driveModes, List.mem_cons, List.not_mem_nil, or_false] at h
  rcases h with rfl | rfl | rfl | rfl | rfl | rfl | rfl | rfl | rfl | rfl <;> rfl

theorem trainType_eq_none {mode : DccMode} (h : isSupported build mode = false) (address : Nat) :
    trainType traction build mode address = none := by
  have hmode : build ≠ .emscripten ∧ mode ∉ isSupported.driveModes ∧
      ¬(build = .native ∧ mode = fakeDrive) := by
    cases build <;> simp_all [isSupported]
  obtain ⟨hbuild, hdrive, hfake⟩ := hmode
  have hmarklin : mode ∉ marklinModes := fun h => hdrive (by
    revert h; simp only [marklinModes, isSupported.driveModes, List.mem_cons]; tauto)
  have hdcc : mode ∉ dccModes := fun h => hdrive (by
    revert h; simp only [dccModes, isSupported.driveModes, List.mem_cons]; tauto)
  unfold trainType
  rw [if_neg hmarklin, if_neg hdcc]
  cases build with
  | emscripten => exact absurd rfl hbuild
  | freeRtos => rfl
  | native => exact if_neg fun h => hfake ⟨rfl, h⟩

namespace DbEntry

variable {entry : DbEntry n} {trainId : Nat}

theorem create_of_drives (h : entry.Drives stored) : entry.create traction build stored trainId =
    some ⟨trainId, entry.tractionNode traction stored⟩ := by
  rw [create, createImpl, trainType_of_driveModes h, Option.map_some]
  cases entry with
  | compiledIn fields =>
    rw [tractionNode, if_neg]
    · rfl
    · rintro huser
      rw [Drives, DbEntry.fields, huser] at h
      exact absurd h (by decide)
  | file i => rfl
  | allocated fields => rfl

theorem create_of_inert (h : entry.Inert build stored) :
    entry.create traction build stored trainId = none := by
  rw [create, createImpl, trainType_eq_none h, Option.map_none]

theorem Drives.not_inert (h : entry.Drives stored) : ¬ entry.Inert build stored := by
  intro hinert
  have hnone : entry.create ⟨fun _ _ => 0, .mm⟩ build stored 0 = none := create_of_inert hinert
  rw [create_of_drives h] at hnone
  cases hnone

end DbEntry

namespace AllTrainNodes

variable {s : AllTrainNodes n}

/-- Every entry has a drive mode for the track or one without a train. -/
def Regular (build : Build) (s : AllTrainNodes n) : Prop :=
  ∀ entry ∈ s.entries, entry.Drives s.stored ∨ entry.Inert build s.stored

instance : Decidable (s.Regular build) := inferInstanceAs (Decidable (∀ _ ∈ _, _))

theorem Regular.create_some (h : s.Regular build) {entry : DbEntry n} (hentry : entry ∈ s.entries)
    {trainId : Nat} {impl : Impl Nat}
    (hcreate : entry.create traction build s.stored trainId = some impl) :
    entry.Drives s.stored ∧ impl = ⟨trainId, entry.tractionNode traction s.stored⟩ := by
  rcases h entry hentry with hdrives | hinert
  · rw [DbEntry.create_of_drives hdrives] at hcreate
    cases hcreate
    exact ⟨hdrives, rfl⟩
  · rw [DbEntry.create_of_inert hinert] at hcreate
    cases hcreate

/-! ### The update of the nodes -/

theorem findEntry_isSome {node : Nat} {hint : Int} : (s.findEntry traction node hint).isSome ↔
    ∃ entry ∈ s.entries, entry.tractionNode traction s.stored = node := by
  have hfind : (s.entries.find? fun e => e.tractionNode traction s.stored = node).isSome ↔
      ∃ entry ∈ s.entries, entry.tractionNode traction s.stored = node := by
    simp
  unfold findEntry
  split
  · next entry hentry =>
    split
    · next hnode => exact ⟨fun _ => ⟨entry, List.mem_of_getElem? hentry, hnode⟩, fun _ => rfl⟩
    · exact hfind
  · exact hfind

theorem keyed (traction : TractionDefs) (s : AllTrainNodes n) :
    Reconcile.Keyed (fun (entry : DbEntry n × Nat) (impl : Impl Nat) =>
      decide (impl.node = entry.1.tractionNode traction s.stored))
    (fun entry impl => { impl with id := entry.2 }) Impl.node
    (fun entry => entry.1.tractionNode traction s.stored) :=
  ⟨fun _ _ => by simp, fun _ _ => rfl⟩

theorem Regular.create_node (h : s.Regular build) :
    ∀ item ∈ s.entries.zipIdx, ∀ impl, item.1.create traction build s.stored item.2 = some impl →
      impl.node = item.1.tractionNode traction s.stored := by
  intro item hitem impl hcreate
  obtain ⟨_, rfl⟩ := h.create_some (List.fst_mem_of_mem_zipIdx hitem) hcreate
  rfl

/-- The trains that the first loop keeps. -/
def kept (traction : TractionDefs) (s : AllTrainNodes n) : List (Impl Nat) :=
  Reconcile.prune (fun impl => (s.findEntry traction impl.node impl.id).isSome) s.trains

theorem mem_kept {node : Nat} : node ∈ (s.kept traction).map Impl.node ↔
    node ∈ s.nodeIds ∧ ∃ entry ∈ s.entries, entry.tractionNode traction s.stored = node := by
  simp only [kept, List.mem_map, Reconcile.mem_prune, findEntry_isSome, nodeIds]
  constructor
  · rintro ⟨impl, ⟨himpl, hentry⟩, rfl⟩
    exact ⟨⟨impl, himpl, rfl⟩, hentry⟩
  · rintro ⟨⟨impl, himpl, rfl⟩, hentry⟩
    exact ⟨impl, ⟨himpl, hentry⟩, rfl⟩

theorem nodup_kept (h : s.nodeIds.Nodup) : ((s.kept traction).map Impl.node).Nodup :=
  (Reconcile.prune_perm.map Impl.node).nodup_iff.mpr (h.sublist (List.filter_sublist.map _))

/-- After an update there is a node for each entry that has a drive mode for the track, and a node
stays for an entry that has none. -/
theorem mem_nodeIds_updateConfig (h : s.Regular build) {node : Nat} :
    node ∈ (s.updateConfig traction build).nodeIds ↔
      ∃ entry ∈ s.entries, entry.tractionNode traction s.stored = node ∧
        (entry.Drives s.stored ∨ node ∈ s.nodeIds) := by
  change node ∈ (s.createMissing traction build (s.kept traction)).map Impl.node ↔ _
  rw [createMissing, Reconcile.mem_map_key_supply (keyed traction s) h.create_node, mem_kept]
  constructor
  · rintro (⟨hnode, entry, hentry, heq⟩ | ⟨⟨entry, trainId⟩, hitem, hcreate, heq⟩)
    · exact ⟨entry, hentry, heq, .inr hnode⟩
    · have hentry := List.fst_mem_of_mem_zipIdx hitem
      obtain ⟨impl, himpl⟩ := Option.isSome_iff_exists.mp hcreate
      exact ⟨entry, hentry, heq, .inl (h.create_some hentry himpl).1⟩
  · rintro ⟨entry, hentry, heq, hdrives | hnode⟩
    · obtain ⟨trainId, htrainId, hget⟩ := List.mem_iff_getElem.mp hentry
      refine .inr ⟨(entry, trainId), ?_, ?_, heq⟩
      · rw [List.mk_mem_zipIdx_iff_getElem?, List.getElem?_eq_getElem htrainId, hget]
      · rw [DbEntry.create_of_drives hdrives]
        rfl
    · exact .inl ⟨hnode, entry, hentry, heq⟩

theorem nodup_nodeIds_updateConfig (h : s.Regular build) (hnodup : s.nodeIds.Nodup) :
    (s.updateConfig traction build).nodeIds.Nodup :=
  Reconcile.nodup_map_key_supply (keyed traction s) h.create_node (nodup_kept hnodup)

/-! ### The loading of the entries -/

/-- What a load makes of the entries of `s`: stored entries with an address are added, or they
replace the entries of the same node. -/
structure Loaded (traction : TractionDefs) (s : AllTrainNodes n) (entries : List (DbEntry n)) :
    Prop where
  only : ∀ entry ∈ entries, entry ∈ s.entries ∨ ∃ i, (s.stored i).HasAddress ∧ entry = .file i
  keeps : ∀ entry ∈ s.entries, entry ∈ entries ∨ ∃ i, (s.stored i).HasAddress ∧
    .file i ∈ entries ∧
      (DbEntry.file i).tractionNode traction s.stored = entry.tractionNode traction s.stored

/-- The stored entries of `indices` with an address have an entry of their nodes. -/
def Covers (traction : TractionDefs) (s : AllTrainNodes n) (entries : List (DbEntry n))
    (indices : List (Fin n)) : Prop :=
  ∀ i ∈ indices, (s.stored i).HasAddress → (s.stored i).mode ≠ 0 →
    ∃ j, (s.stored j).HasAddress ∧ .file j ∈ entries ∧
      (DbEntry.file j).tractionNode traction s.stored =
        (DbEntry.file i).tractionNode traction s.stored

/-- The entry of `i` is put among the entries, or in the place of those of the same node. -/
structure Placed (traction : TractionDefs) (s : AllTrainNodes n) (i : Fin n)
    (entries entries' : List (DbEntry n)) : Prop where
  mem : .file i ∈ entries'
  only : ∀ entry ∈ entries', entry ∈ entries ∨ entry = .file i
  keeps : ∀ entry ∈ entries, entry ∈ entries' ∨
    (DbEntry.file i).tractionNode traction s.stored = entry.tractionNode traction s.stored

theorem placed_append (entries : List (DbEntry n)) (i : Fin n) :
    Placed traction s i entries (entries ++ [.file i]) :=
  ⟨by simp, by simp, fun entry h => .inl (List.mem_append_left _ h)⟩

theorem placed_map {entries : List (DbEntry n)} {i : Fin n} {found : DbEntry n}
    (hfound : found ∈ entries) (hnode : found.tractionNode traction s.stored =
      (DbEntry.file i).tractionNode traction s.stored) :
    Placed traction s i entries (entries.map fun e => if e.tractionNode traction s.stored =
      (DbEntry.file i).tractionNode traction s.stored then .file i else e) := by
  refine ⟨List.mem_map.mpr ⟨found, hfound, if_pos hnode⟩, fun entry hentry => ?_,
    fun entry hentry => ?_⟩
  · obtain ⟨e, he, rfl⟩ := List.mem_map.mp hentry
    split
    · exact .inr rfl
    · exact .inl he
  · by_cases hsame : entry.tractionNode traction s.stored =
        (DbEntry.file i).tractionNode traction s.stored
    · exact .inr hsame.symm
    · exact .inl (List.mem_map.mpr ⟨entry, hentry, if_neg hsame⟩)

theorem loadInitially_cases (entries : List (DbEntry n)) (i : Fin n) :
    s.loadInitially entries i = entries ∧ ((s.stored i).HasAddress → (s.stored i).mode = 0) ∨
      (s.stored i).HasAddress ∧ Placed traction s i entries (s.loadInitially entries i) := by
  unfold loadInitially
  split
  · next h => exact .inr ⟨h.1, placed_append entries i⟩
  · next h => exact .inl ⟨rfl, fun haddress => by_contra fun hmode => h ⟨haddress, hmode⟩⟩

theorem loadAgain_cases (entries : List (DbEntry n)) (i : Fin n) :
    s.loadAgain traction entries i = entries ∧ ¬(s.stored i).HasAddress ∨
      (s.stored i).HasAddress ∧ Placed traction s i entries (s.loadAgain traction entries i) := by
  unfold loadAgain
  split
  · next h =>
    refine .inr ⟨h, ?_⟩
    dsimp only
    split
    · next hany =>
      obtain ⟨found, hfound, hnode⟩ := List.any_eq_true.mp hany
      exact placed_map hfound (of_decide_eq_true hnode)
    · exact placed_append entries i
  · next h => exact .inl ⟨rfl, h⟩

/-- What one round of either loop does. -/
theorem load_cases (traction : TractionDefs) (s : AllTrainNodes n) (entries : List (DbEntry n))
    (i : Fin n) (initialLoad : Bool) :
    (if initialLoad then s.loadInitially else s.loadAgain traction) entries i = entries ∧
      ((s.stored i).HasAddress → (s.stored i).mode = 0) ∨
    (s.stored i).HasAddress ∧ Placed traction s i entries
      ((if initialLoad then s.loadInitially else s.loadAgain traction) entries i) := by
  cases initialLoad with
  | true => exact loadInitially_cases entries i
  | false =>
    exact (loadAgain_cases entries i).imp_left fun h => ⟨h.1, fun haddress => absurd haddress h.2⟩

theorem load_foldl (initialLoad : Bool) (indices : List (Fin n)) {entries : List (DbEntry n)}
    (hloaded : Loaded traction s entries) :
    Loaded traction s (indices.foldl
      (if initialLoad then s.loadInitially else s.loadAgain traction) entries) ∧
    (∀ i, (s.stored i).HasAddress → .file i ∈ entries → ∃ j, (s.stored j).HasAddress ∧
      .file j ∈ indices.foldl (if initialLoad then s.loadInitially else s.loadAgain traction)
        entries ∧
      (DbEntry.file j).tractionNode traction s.stored =
        (DbEntry.file i).tractionNode traction s.stored) ∧
    Covers traction s (indices.foldl
      (if initialLoad then s.loadInitially else s.loadAgain traction) entries) indices := by
  induction indices generalizing entries with
  | nil => exact ⟨hloaded, fun i hi hmem => ⟨i, hi, hmem, rfl⟩, fun i hi => by cases hi⟩
  | cons i indices ih =>
    rw [List.foldl_cons]
    rcases load_cases traction s entries i initialLoad with
      ⟨heq, hskip⟩ | ⟨haddress, hmem, honly, hkeeps⟩
    · rw [heq]
      obtain ⟨hloaded', hstays, hcovers⟩ := ih hloaded
      refine ⟨hloaded', hstays, fun k hk hka hkm => ?_⟩
      rcases List.mem_cons.mp hk with rfl | hk
      · exact absurd (hskip hka) hkm
      · exact hcovers k hk hka hkm
    · have hround : Loaded traction s
          ((if initialLoad then s.loadInitially else s.loadAgain traction) entries i) := by
        refine ⟨fun entry hentry => ?_, fun entry hentry => ?_⟩
        · rcases honly entry hentry with h | rfl
          · exact hloaded.only entry h
          · exact .inr ⟨i, haddress, rfl⟩
        · rcases hloaded.keeps entry hentry with h | ⟨k, hk, hfile, hnode⟩
          · rcases hkeeps entry h with h | h
            · exact .inl h
            · exact .inr ⟨i, haddress, hmem, h⟩
          · rcases hkeeps (.file k) hfile with h | h
            · exact .inr ⟨k, hk, h, hnode⟩
            · exact .inr ⟨i, haddress, hmem, h.trans hnode⟩
      obtain ⟨hloaded', hstays, hcovers⟩ := ih hround
      refine ⟨hloaded', fun k hk hfile => ?_, fun k hk hka hkm => ?_⟩
      · rcases hkeeps (.file k) hfile with h | h
        · exact hstays k hk h
        · obtain ⟨j, hj, hjmem, hjnode⟩ := hstays i haddress hmem
          exact ⟨j, hj, hjmem, hjnode.trans h⟩
      · rcases List.mem_cons.mp hk with rfl | hk
        · exact hstays k hka hmem
        · exact hcovers k hk hka hkm

theorem loaded (traction : TractionDefs) (s : AllTrainNodes n) (initialLoad : Bool) :
    Loaded traction s (s.loadFromFile traction initialLoad).entries :=
  (load_foldl initialLoad (List.finRange n)
    ⟨fun _ h => .inl h, fun _ h => .inl h⟩).1

theorem covers (traction : TractionDefs) (s : AllTrainNodes n) (initialLoad : Bool) :
    Covers traction s (s.loadFromFile traction initialLoad).entries (List.finRange n) :=
  (load_foldl initialLoad (List.finRange n)
    ⟨fun _ h => .inl h, fun _ h => .inl h⟩).2.2

/-! ### Histories -/

variable {constLokdb : List TrainFields} {past : List (TrainsInput n)}

/-- The entry that is allocated. -/
def allocatedEntry : TrainsInput n → Option (DbEntry n)
  | .allocateNode driveType address => some (.allocated ⟨address % 2 ^ 16, driveType⟩)
  | .write _ => none
  | .update _ => none

/-- The trains that do not depend on the file: the compiled-in ones and those that have been
allocated. -/
def known (constLokdb : List TrainFields) (past : List (TrainsInput n)) : List (DbEntry n) :=
  initConstLokdb constLokdb ++ past.filterMap allocatedEntry

theorem known_concat (constLokdb : List TrainFields) (past : List (TrainsInput n))
    (input : TrainsInput n) :
    known constLokdb (past ++ [input]) =
      known constLokdb past ++ (allocatedEntry input).toList := by
  rw [known, List.filterMap_append, known, List.append_assoc]
  cases input <;> rfl

/-- The compiled-in trains have drive modes for the track and different nodes. -/
structure ProperLokdb (traction : TractionDefs) (constLokdb : List TrainFields)
    (stored : StoredTrains n) : Prop where
  drives : ∀ fields ∈ constLokdb, fields.address ≠ 0 → fields.mode ∈ isSupported.driveModes
  nodup : ((initConstLokdb constLokdb : List (DbEntry n)).map
    (DbEntry.tractionNode traction stored)).Nodup

/-- No train is created for the stored entry `i`, and it shares its node with no train. -/
def Unused (traction : TractionDefs) (build : Build) (s : AllTrainNodes n) (i : Fin n) : Prop :=
  (DbEntry.file i).Inert build s.stored ∧
    (DbEntry.file i).tractionNode traction s.stored ∉ s.nodeIds ∧
    ∀ j, (s.stored j).HasAddress → (DbEntry.file j).Drives s.stored →
      (DbEntry.file j).tractionNode traction s.stored ≠
        (DbEntry.file i).tractionNode traction s.stored

instance (i : Fin n) : Decidable (s.Unused traction build i) :=
  inferInstanceAs (Decidable (_ ∧ _ ∧ _))

/-- At an update no entry has a drive mode for the track without an address; a stored entry without
such a drive mode is unused; and a known train whose entry has been replaced is still stored in the
file. -/
@[mk_iff]
structure ProperUpdate (traction : TractionDefs) (build : Build) (known : List (DbEntry n))
    (s : AllTrainNodes n) : Prop where
  cleared : ∀ i, .file i ∈ s.entries → (DbEntry.file i).Drives s.stored →
    (s.stored i).HasAddress
  unused : ∀ i, (s.stored i).HasAddress ∨ .file i ∈ s.entries →
    ¬(DbEntry.file i).Drives s.stored → s.Unused traction build i
  released : ∀ entry ∈ known, entry ∉ s.entries → ∃ j, (s.stored j).HasAddress ∧
    (DbEntry.file j).Drives s.stored ∧
    (DbEntry.file j).tractionNode traction s.stored = entry.tractionNode traction s.stored

/-- What is asked of each thing that happens: a train is allocated for the track only, at an address
that its entry can hold, and only if there is no node for it. -/
def Proper (traction : TractionDefs) (build : Build) (constLokdb : List TrainFields)
    (past : List (TrainsInput n)) (s : AllTrainNodes n) : TrainsInput n → Prop
  | .allocateNode driveType address => driveType ∈ isSupported.driveModes ∧ address < 2 ^ 16 ∧
    DbEntry.legacyNode traction ⟨address, driveType⟩ ∉ s.nodeIds
  | .write _ => True
  | .update _ => s.ProperUpdate traction build (known constLokdb past)

instance (known : List (DbEntry n)) : Decidable (s.ProperUpdate traction build known) :=
  decidable_of_iff' _ (properUpdate_iff traction build known s)

instance (input : TrainsInput n) : Decidable (s.Proper traction build constLokdb past input) :=
  match input with
  | .allocateNode _ _ => inferInstanceAs (Decidable (_ ∧ _ ∧ _))
  | .write _ => inferInstanceAs (Decidable True)
  | .update _ => inferInstanceAs (Decidable (ProperUpdate _ _ _ _))

/-- A known entry is not one of the file, and it has a drive mode for the track. -/
def IsKnown (entry : DbEntry n) : Prop :=
  ∃ fields, (entry = .compiledIn fields ∨ entry = .allocated fields) ∧
    fields.mode ∈ isSupported.driveModes

theorem IsKnown.drives {entry : DbEntry n} (h : IsKnown entry) (stored : StoredTrains n) :
    entry.Drives stored := by
  obtain ⟨fields, rfl | rfl, hmode⟩ := h <;> exact hmode

theorem IsKnown.tractionNode {entry : DbEntry n} (h : IsKnown entry)
    (stored stored' : StoredTrains n) :
    entry.tractionNode traction stored = entry.tractionNode traction stored' := by
  obtain ⟨fields, rfl | rfl, _⟩ := h <;> rfl

/-- What holds all the time of a proper history. -/
structure Settled (traction : TractionDefs) (constLokdb : List TrainFields)
    (past : List (TrainsInput n)) (s : AllTrainNodes n) : Prop where
  nodup : s.nodeIds.Nodup
  known : ∀ entry ∈ known constLokdb past, IsKnown entry
  entries : ∀ entry ∈ s.entries, entry ∈ AllTrainNodes.known constLokdb past ∨ ∃ i, entry = .file i
  present : ∀ entry ∈ AllTrainNodes.known constLokdb past, entry ∈ s.entries →
    entry.tractionNode traction s.stored ∈ s.nodeIds

/-- The nodes that there should be. -/
def Expected (traction : TractionDefs) (known : List (DbEntry n)) (s : AllTrainNodes n)
    (node : Nat) : Prop :=
  (∃ i, (s.stored i).HasAddress ∧ (DbEntry.file i).Drives s.stored ∧
    (DbEntry.file i).tractionNode traction s.stored = node) ∨
  ∃ entry ∈ known, entry.tractionNode traction s.stored = node

/-- The entries that an update works with are known or have been asked for in the file. -/
theorem Settled.mem_load (h : Settled traction constLokdb past s) {initialLoad : Bool}
    {entry : DbEntry n} (hentry : entry ∈ (s.loadFromFile traction initialLoad).entries) :
    entry ∈ AllTrainNodes.known constLokdb past ∨
      ∃ i, entry = .file i ∧ ((s.stored i).HasAddress ∨ .file i ∈ s.entries) := by
  rcases (loaded traction s initialLoad).only entry hentry with hold | ⟨i, hi, rfl⟩
  · rcases h.entries entry hold with hknown | ⟨i, rfl⟩
    · exact .inl hknown
    · exact .inr ⟨i, rfl, .inr hold⟩
  · exact .inr ⟨i, rfl, .inl hi⟩

theorem Settled.regular_load (h : Settled traction constLokdb past s)
    (hproper : s.ProperUpdate traction build (AllTrainNodes.known constLokdb past))
    (initialLoad : Bool) : (s.loadFromFile traction initialLoad).Regular build := by
  intro entry hentry
  rcases h.mem_load hentry with hknown | ⟨i, rfl, hi⟩
  · exact .inl ((h.known entry hknown).drives _)
  · by_cases hdrives : (DbEntry.file i).Drives s.stored
    · exact .inl hdrives
    · exact .inr (hproper.unused i hi hdrives).1

/-- A known train has an entry after a load that gives it a node. -/
theorem Settled.known_loaded (h : Settled traction constLokdb past s)
    (hproper : s.ProperUpdate traction build (AllTrainNodes.known constLokdb past))
    (initialLoad : Bool) {entry : DbEntry n}
    (hknown : entry ∈ AllTrainNodes.known constLokdb past) :
    entry ∈ (s.loadFromFile traction initialLoad).entries ∨
      ∃ i, (s.stored i).HasAddress ∧ (DbEntry.file i).Drives s.stored ∧
        (DbEntry.file i).tractionNode traction s.stored = entry.tractionNode traction s.stored := by
  by_cases hold : entry ∈ s.entries
  · rcases (loaded traction s initialLoad).keeps entry hold with hkept | ⟨i, hi, _, hnode⟩
    · exact .inl hkept
    · refine .inr ⟨i, hi, by_contra fun hdrives => ?_, hnode⟩
      refine (hproper.unused i (.inl hi) hdrives).2.1 ?_
      rw [hnode]
      exact h.present entry hknown hold
  · exact .inr (hproper.released entry hknown hold)

/-- After an update there are the nodes that there should be. -/
theorem Settled.mem_nodeIds_update (h : Settled traction constLokdb past s)
    (hproper : s.ProperUpdate traction build (AllTrainNodes.known constLokdb past))
    (initialLoad : Bool) {node : Nat} :
    node ∈ ((s.loadFromFile traction initialLoad).updateConfig traction build).nodeIds ↔
      Expected traction (AllTrainNodes.known constLokdb past) s node := by
  rw [mem_nodeIds_updateConfig (h.regular_load hproper initialLoad)]
  constructor
  · rintro ⟨entry, hentry, hnode, hreason⟩
    rcases h.mem_load hentry with hknown | ⟨i, rfl, hi⟩
    · exact .inr ⟨entry, hknown, hnode⟩
    · by_cases hdrives : (DbEntry.file i).Drives s.stored
      · exact .inl ⟨i, hi.elim id fun hold => hproper.cleared i hold hdrives, hdrives, hnode⟩
      · obtain ⟨_, hnew, _⟩ := hproper.unused i hi hdrives
        refine absurd ?_ hnew
        rw [show (DbEntry.file i).tractionNode traction s.stored = node from hnode]
        exact hreason.resolve_left hdrives
  · have hfile : ∀ i, (s.stored i).HasAddress → (DbEntry.file i).Drives s.stored →
        ∃ entry ∈ (s.loadFromFile traction initialLoad).entries,
          entry.tractionNode traction s.stored =
            (DbEntry.file i).tractionNode traction s.stored ∧ entry.Drives s.stored := by
      intro i hi hdrives
      have hmode : (s.stored i).mode ≠ 0 := by
        intro hzero
        rw [DbEntry.Drives, DbEntry.fields, hzero] at hdrives
        exact absurd hdrives (by decide)
      obtain ⟨j, hj, hmem, hnode⟩ :=
        covers traction s initialLoad i (List.mem_finRange i) hi hmode
      refine ⟨.file j, hmem, hnode, by_contra fun hnot => ?_⟩
      exact (hproper.unused j (.inl hj) hnot).2.2 i hi hdrives hnode.symm
    rintro (⟨i, hi, hdrives, rfl⟩ | ⟨entry, hknown, rfl⟩)
    · obtain ⟨entry, hmem, hnode, hd⟩ := hfile i hi hdrives
      exact ⟨entry, hmem, hnode, .inl hd⟩
    · rcases h.known_loaded hproper initialLoad hknown with
        hmem | ⟨i, hi, hdrives, hnode⟩
      · exact ⟨entry, hmem, rfl, .inl ((h.known entry hknown).drives _)⟩
      · obtain ⟨other, hmem, hsame, hd⟩ := hfile i hi hdrives
        exact ⟨other, hmem, hsame.trans hnode, .inl hd⟩

/-! ### Runs -/

theorem isKnown_of_mem_initConstLokdb
    (h : ∀ fields ∈ constLokdb, fields.address ≠ 0 → fields.mode ∈ isSupported.driveModes) :
    ∀ entry ∈ (initConstLokdb constLokdb : List (DbEntry n)), IsKnown entry := by
  intro entry hentry
  obtain ⟨i, _, hi⟩ := List.mem_filterMap.mp hentry
  obtain ⟨fields, hfields, hentry⟩ := Option.bind_eq_some_iff.mp hi
  split at hentry
  · next haddress =>
    cases hentry
    exact ⟨fields, .inl rfl, h fields (List.mem_of_getElem? hfields) haddress⟩
  · cases hentry

theorem length_initConstLokdb_le :
    (initConstLokdb constLokdb : List (DbEntry n)).length ≤ constLokdb.length := by
  refine (List.length_filterMap_le _ _).trans ?_
  rw [List.length_range]

theorem filterMap_range_getElem? {α : Type} {l : List α} {m : Nat} (h : l.length ≤ m) :
    (List.range m).filterMap (l[·]?) = l := by
  induction l generalizing m with
  | nil => simp
  | cons x l ih =>
    cases m with
    | zero => simp at h
    | succ m =>
      rw [List.range_succ_eq_map, List.filterMap_cons, List.filterMap_map]
      exact congrArg (x :: ·) (ih (by simpa using h))

/-- The constructor creates a node for each compiled-in train. -/
theorem nodeIds_construct
    (h : ∀ fields ∈ constLokdb, fields.address ≠ 0 → fields.mode ∈ isSupported.driveModes) :
    (construct traction build constLokdb stored).nodeIds =
      (initConstLokdb constLokdb).map (DbEntry.tractionNode traction stored) := by
  rw [nodeIds, construct, List.map_filterMap]
  have hlength : ((initConstLokdb constLokdb).map (DbEntry.tractionNode traction stored)).length ≤
      constLokdb.length := by
    rw [List.length_map]
    exact length_initConstLokdb_le
  conv_rhs => rw [← filterMap_range_getElem? hlength]
  refine List.filterMap_congr fun trainId _ => ?_
  rw [List.getElem?_map]
  cases hget : (initConstLokdb constLokdb : List (DbEntry n))[trainId]? with
  | none => simp
  | some entry =>
    have hknown := isKnown_of_mem_initConstLokdb h entry (List.mem_of_getElem? hget)
    have hdrives := hknown.drives stored
    simp [DbEntry.create_of_drives hdrives]

theorem settled_construct (h : ProperLokdb traction constLokdb stored) :
    Settled traction constLokdb [] (construct traction build constLokdb stored) where
  nodup := by
    rw [nodeIds_construct h.drives]
    exact h.nodup
  known := by
    intro entry hentry
    rw [AllTrainNodes.known, List.filterMap_nil, List.append_nil] at hentry
    exact isKnown_of_mem_initConstLokdb h.drives entry hentry
  entries := by
    intro entry hentry
    exact .inl (List.mem_append_left _ hentry)
  present := by
    intro entry _ hentry
    rw [nodeIds_construct h.drives]
    exact List.mem_map_of_mem hentry

/-- What `allocate_node` does for a drive mode for the track. -/
theorem allocateNode_of_driveModes {driveType : DccMode} {address : Nat}
    (h : driveType ∈ isSupported.driveModes) :
    s.allocateNode traction build driveType address =
      ({ s with
          entries := s.entries ++ [.allocated ⟨address % 2 ^ 16, driveType⟩]
          trains := s.trains ++
            [⟨s.entries.length, DbEntry.legacyNode traction ⟨address, driveType⟩⟩] },
        DbEntry.legacyNode traction ⟨address, driveType⟩) := by
  rw [allocateNode, createImpl, trainType_of_driveModes h]
  rfl

theorem Settled.allocateNode (h : Settled traction constLokdb past s) {driveType : DccMode}
    {address : Nat}
    (hproper : s.Proper traction build constLokdb past (.allocateNode driveType address)) :
    Settled traction constLokdb (past ++ [.allocateNode driveType address])
      (s.step traction build (.allocateNode driveType address)) := by
  obtain ⟨hmode, hfits, hnew⟩ := hproper
  have hknown : AllTrainNodes.known constLokdb (past ++ [.allocateNode driveType address]) =
      AllTrainNodes.known constLokdb past ++ [.allocated ⟨address, driveType⟩] := by
    rw [known_concat, allocatedEntry, Nat.mod_eq_of_lt hfits, Option.toList_some]
  rw [step, allocateNode_of_driveModes hmode, Nat.mod_eq_of_lt hfits]
  refine ⟨?_, ?_, ?_, ?_⟩
  · rw [nodeIds, List.map_append]
    exact h.nodup.append (List.nodup_singleton _) (List.disjoint_singleton.mpr hnew)
  · intro entry hentry
    rw [hknown] at hentry
    rcases List.mem_append.mp hentry with hold | hlast
    · exact h.known entry hold
    · exact ⟨_, .inr (List.mem_singleton.mp hlast), hmode⟩
  · intro entry hentry
    rw [hknown]
    rcases List.mem_append.mp hentry with hold | hlast
    · exact (h.entries entry hold).imp_left (List.mem_append_left _)
    · exact .inl (List.mem_append_right _ hlast)
  · intro entry hentry hmem
    rw [hknown] at hentry
    rw [nodeIds, List.map_append, List.mem_append]
    rcases List.mem_append.mp hmem with hold | hlast
    · rcases List.mem_append.mp hentry with hentry | hentry
      · exact .inl (h.present entry hentry hold)
      · rw [List.mem_singleton.mp hentry]
        exact .inr (List.mem_singleton.mpr rfl)
    · rw [List.mem_singleton.mp hlast]
      exact .inr (List.mem_singleton.mpr rfl)

theorem Settled.step (h : Settled traction constLokdb past s) {input : TrainsInput n}
    (hproper : s.Proper traction build constLokdb past input) :
    Settled traction constLokdb (past ++ [input]) (s.step traction build input) := by
  cases input with
  | allocateNode driveType address => exact h.allocateNode hproper
  | write stored =>
    have hknown : AllTrainNodes.known constLokdb (past ++ [.write stored]) =
        AllTrainNodes.known constLokdb past := by
      rw [known_concat, allocatedEntry, Option.toList_none, List.append_nil]
    refine ⟨h.nodup, by rw [hknown]; exact h.known, by rw [hknown]; exact h.entries, ?_⟩
    rw [hknown]
    intro entry hentry hmem
    rw [(h.known entry hentry).tractionNode _ s.stored]
    exact h.present entry hentry hmem
  | update initialLoad =>
    have hknown : AllTrainNodes.known constLokdb (past ++ [.update initialLoad]) =
        AllTrainNodes.known constLokdb past := by
      rw [known_concat, allocatedEntry, Option.toList_none, List.append_nil]
    refine ⟨nodup_nodeIds_updateConfig (h.regular_load hproper initialLoad) h.nodup,
      by rw [hknown]; exact h.known, ?_, ?_⟩
    · rw [hknown]
      intro entry hentry
      exact (h.mem_load hentry).imp_right fun ⟨i, hi, _⟩ => ⟨i, hi⟩
    · rw [hknown]
      intro entry hentry _
      exact (h.mem_nodeIds_update hproper initialLoad).mpr (.inr ⟨entry, hentry, rfl⟩)

/-- One of the things that happen, in a run. -/
def next (traction : TractionDefs) (build : Build) (s : AllTrainNodes n) (input : TrainsInput n) :
    Option (AllTrainNodes n) :=
  some (s.step traction build input)

theorem settled_of_run (hlokdb : ProperLokdb traction constLokdb stored)
    (heach : Trace.EachStep (next traction build)
      (fun past s input _ => s.Proper traction build constLokdb past input)
      (construct traction build constLokdb stored) past)
    (hrun : Trace.run (next traction build) (construct traction build constLokdb stored) past =
      some s) : Settled traction constLokdb past s :=
  Trace.invariant (settled_construct hlokdb)
    (fun past input t u _ hI hP hstep => by
      cases hstep
      exact hI.step hP)
    heach hrun

/-- In every proper history, after each update there is exactly one node for every train of the
file, every compiled-in one and every allocated one, and there is no other node. -/
theorem nodes_follow_config {initialLoad : Bool} (hlokdb : ProperLokdb traction constLokdb stored)
    (heach : Trace.EachStep (next traction build)
      (fun past s input _ => s.Proper traction build constLokdb past input)
      (construct traction build constLokdb stored) (past ++ [.update initialLoad]))
    (hrun : Trace.run (next traction build) (construct traction build constLokdb stored)
      (past ++ [.update initialLoad]) = some s) :
    s.nodeIds.Nodup ∧
      ∀ node, node ∈ s.nodeIds ↔ Expected traction (known constLokdb past) s node := by
  obtain ⟨before, hpast, hlast⟩ := Trace.run_concat_eq_some.mp hrun
  have hsettled := settled_of_run hlokdb heach.of_append hpast
  have hproper := heach.last hpast hlast
  cases hlast
  refine ⟨(hsettled.step hproper).nodup, fun node => ?_⟩
  exact hsettled.mem_nodeIds_update hproper initialLoad

/-- Node IDs of trains, and a file with one train, whose address is then edited. -/
def sampleTraction : TractionDefs where
  trainNodeIdFromLegacy type address :=
    match type with
    | .mm => 0x060300000000 + address
    | .dccShortAddress => 0x060100000000 + address
    | _ => if address < 128 then 0x06010000C000 + address else 0x060100000000 + address
  loggingTrainType := .dccLongAddress
def sampleLokdb : List TrainFields := [⟨43, dcc128 ||| DccMode.dccLongAddress⟩, ⟨0, 0⟩]
def sampleHistory : List (TrainsInput 1) :=
  [.update true, .allocateNode dcc28 7, .write fun _ => ⟨6, dcc28⟩]

theorem sampleHistory_proper : Trace.EachStep (next sampleTraction .native)
    (fun past s input _ => s.Proper sampleTraction .native sampleLokdb past input)
    (construct sampleTraction .native sampleLokdb fun _ => ⟨5, dcc28⟩)
    (sampleHistory ++ [.update false]) := by
  refine .cons (fun _ _ => by decide) ?_
  rintro _ ⟨⟩
  refine .cons (fun _ _ => by decide) ?_
  rintro _ ⟨⟩
  refine .cons (fun _ _ => by decide) ?_
  rintro _ ⟨⟩
  exact .cons (fun _ _ => by decide) fun _ _ => Trace.eachStep_nil

theorem edited_train_followed : ∃ s : AllTrainNodes 1,
    s.nodeIds.Nodup ∧ ∀ node, node ∈ s.nodeIds ↔
      Expected sampleTraction (known sampleLokdb sampleHistory) s node :=
  ⟨_, nodes_follow_config ⟨by decide, by decide⟩ sampleHistory_proper rfl⟩

end AllTrainNodes

end OpenmrnCue.CommandStation
