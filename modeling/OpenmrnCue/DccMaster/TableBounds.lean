import OpenmrnCue.DccMaster.Steps

/-! The table of locomotives.  The number in a packet that asks for a value, and that in a call that
reverses a locomotive, are not checked; everything else stays within the table in every run. -/

namespace OpenmrnCue.DccMaster

open Conformance

/-- A packet that asks for a value that the mobile stations do not know. -/
def CanPacket.isQuery (p : CanPacket) : Prop :=
  (p.sid = 0x4048 ∨ p.sid = 0xc048) ∧ p.eidl &&& 0xfe = 0 ∧ p.eidh &&& 3 = 1 ∧ p.d 1 = 0 ∧
    (p.len = 2 ∧ 32 ≤ p.d 0 ∨ 40 ≤ p.eidh ∨ 0x0b ≤ p.d 0)

instance (p : CanPacket) : Decidable p.isQuery := inferInstanceAs (Decidable (_ ∧ _))

/-- An input that names a locomotive behind the table where the number is not checked. -/
def Input.overruns : Input → Prop
  | .packet p => p.isQuery ∧ dccNumLoco ≤ (p.eidh >>> 2).toNat
  | .setLocoReversed id _ => dccNumLoco ≤ id
  | _ => False

/-- The table is complete. -/
def Master.Complete (m : Master) : Prop :=
  m.locos.length = dccNumLoco ∧ m.numLocos = dccNumLoco

namespace Master

variable {m : Master} {r : Master × List Event}

theorem Calm.complete (h : m.Calm r) (hm : m.Complete) : r.1.Complete := by
  refine ⟨?_, ?_⟩
  · have hlength := congrArg List.length h.locos
    rw [List.length_map, List.length_map] at hlength
    exact hlength.trans hm.1
  · rw [h.rest]
    exact hm.2

theorem complete_setLoco (hm : m.Complete) (id : Nat) (l : Loco) : (m.setLoco id l).Complete :=
  ⟨(List.length_set ..).trans hm.1, hm.2⟩

theorem complete_processLoop (hm : m.Complete) : m.processLoop.1.Complete := by
  unfold processLoop
  split
  · split
    · unfold sendPriority
      dsimp only
      split
      · exact hm
      · split
        · exact complete_setLoco hm _ _
        · split <;> exact hm
    · unfold refresh
      split
      · exact hm
      · dsimp only
        split
        · exact complete_setLoco hm _ _
        · split <;> exact complete_setLoco hm _ _
  · exact hm

theorem SameLocos.complete {m' : Master} (h : m.SameLocos m') (hm : m.Complete) : m'.Complete :=
  ⟨by rw [h.locos]; exact hm.1, h.numLocos.trans hm.2⟩

theorem parts_complete :
    Parts (fun (_ : Unit) _ _ => True) (fun m _ => m.Complete) fun _ m _ => m.Complete :=
  parts_of_invariant (fun _ _ h => h.complete) (fun _ _ h => h.complete)
    fun _ => complete_processLoop

end Master

/-- The numbers in packets that set a value are checked. -/
theorem handleSet_isSome (db : List ConstLoco) {m : Master} (hm : m.Complete) (p : CanPacket) :
    (m.handleSet db p).isSome = true := by
  unfold Master.handleSet
  split
  · dsimp only
    split
    · rfl
    · next hid =>
      have hlt : (p.eidh >>> 2).toNat < m.locos.length := by
        rw [hm.1, ← hm.2]
        exact Nat.not_le.mp fun h => hid (.inl h)
      rw [List.getElem?_eq_getElem hlt, Option.bind_some]
      split
      · rfl
      split
      · rfl
      split
      · rw [Master.setLocoReversed, List.getElem?_eq_getElem hlt]
        rfl
      split <;> rfl
  · rfl

theorem handleQuery_eq_none {db : List ConstLoco} {m : Master} (hm : m.Complete) (p : CanPacket) :
    m.handleQuery db p = none ↔ p.isQuery ∧ dccNumLoco ≤ (p.eidh >>> 2).toNat := by
  unfold Master.handleQuery
  change (if p.isQuery then _ else _) = none ↔ _
  by_cases hquery : p.isQuery
  · rw [if_pos hquery, Option.map_eq_none_iff, List.getElem?_eq_none_iff, hm.1]
    exact (and_iff_right hquery).symm
  · rw [if_neg hquery]
    simp [hquery]

theorem react_eq_none {db : List ConstLoco} {m : Master} (hm : m.Complete) (input : Input) :
    react db m input = none ↔ input.overruns := by
  cases input with
  | packet p =>
    have hheard := (Master.hear_same m p).1.complete hm
    obtain ⟨set, hset⟩ := Option.isSome_iff_exists.mp (handleSet_isSome db hheard p)
    have hcomplete := (Master.calm_handleSet hset).complete hheard
    have hhandle : m.handlePacket db p = none ↔ set.1.handleQuery db p = none := by
      rw [Master.handlePacket_eq, hset, Option.bind_some, Option.bind_eq_none_iff]
      simp only [reduceCtorEq, imp_false]
      rw [← Option.eq_none_iff_forall_ne_some]
    change (m.handlePacket db p).bind _ = none ↔ _
    rw [Option.bind_eq_none_iff]
    simp only [reduceCtorEq, imp_false]
    rw [← Option.eq_none_iff_forall_ne_some, hhandle, handleQuery_eq_none hcomplete]
    rfl
  | setLocoReversed id isReversed =>
    change Option.map _ _ = none ↔ _
    rw [Option.map_eq_none_iff, List.getElem?_eq_none_iff, hm.1]
    rfl
  | setLocoPaused | setLocoFn | setLocoAbsoluteSpeed | setLocoRelativeSpeed | emergencyStop =>
    simp [react, Input.overruns]

/-- A full table. -/
def sampleTable : List ConstLoco := List.replicate dccNumLoco ⟨50, [0, 1, 2, 3, 0xff], 5⟩

end OpenmrnCue.DccMaster
