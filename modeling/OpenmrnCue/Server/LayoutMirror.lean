import OpenmrnCue.Server.TrainControlService
import OpenmrnCue.Library.Trace

/-! The layout state as a mirror of the packets on the bus.  On the bus the bytes of a packet are
unsigned, so a train has a number below 64, and functions and their values are below 256; the
server takes them from signed characters. -/

namespace OpenmrnCue.Server

/-- What a packet says on the bus: a new value of the emergency stop, or a value for a function of
the train whose number is in the upper six bits of `address`. -/
inductive HostPacket where
  | stop (value : UInt8)
  | train (address fn value : UInt8)
deriving DecidableEq, Repr

def decodePacket : List UInt8 → Option HostPacket
  | [cmd, sidh, sidl, eidh, eidl, len, d0, d1, value] =>
    if cmd = 0x1a ∧ sidh = 0x40 ∧ len = 3 ∧ d1 = 0 then
      if sidl = 0x08 ∧ eidh = 0x09 ∧ (eidl = 0 ∨ eidl = 1) ∧ d0 = 1 then some (.stop value)
      else if sidl = 0x48 ∧ eidh % 2 = 1 ∧ eidl = 0 then some (.train eidh d0 value)
      else none
    else none
  | _ => none

/-- A byte as a signed character, widened to an `int`. -/
def signed (b : UInt8) : Int32 := b.toInt8.toInt32

/-- The key under which the server keeps a train. -/
def lokKey (address : UInt8) : Int := (signed address >>> 2).toInt

theorem toInt_signed (b : UInt8) : (signed b).toInt = b.toBitVec.toInt := by
  rw [signed, Int8.toInt_toInt32]
  rfl

theorem signed_inj {a b : UInt8} (h : signed a = signed b) : a = b := by
  have htoInt : a.toBitVec.toInt = b.toBitVec.toInt := by
    rw [← toInt_signed, ← toInt_signed, h]
  exact UInt8.toBitVec_inj.mp (BitVec.eq_of_toInt_eq htoInt)

theorem signed_eq {a b : UInt8} : signed a = signed b ↔ a = b :=
  ⟨signed_inj, fun h => by rw [h]⟩

theorem toInt_unsigned (b : UInt8) : b.toUInt32.toInt32.toInt = b.toNat := by
  have hb := b.toNat_lt
  have htoNat : b.toUInt32.toBitVec.toNat = b.toNat := UInt8.toNat_toUInt32 b
  have htoInt : b.toUInt32.toBitVec.toInt = b.toUInt32.toBitVec.toNat :=
    BitVec.toInt_eq_toNat_of_lt (by omega)
  rw [← htoNat]
  exact htoInt

/-- Of a mask of one byte it makes no difference whether the byte is signed. -/
theorem signed_and (b mask : UInt8) :
    signed b &&& mask.toUInt32.toInt32 = (b &&& mask).toUInt32.toInt32 := by
  apply Int32.toBitVec_inj.mp
  rw [Int32.toBitVec_and]
  change b.toBitVec.signExtend 32 &&& mask.toBitVec.zeroExtend 32 =
    (b.toBitVec &&& mask.toBitVec).zeroExtend 32
  ext i hi
  by_cases h : i < 8
  · simp [BitVec.getElem_signExtend, h]
  · have hmask : mask.toBitVec.getLsbD i = false := BitVec.getLsbD_of_ge _ _ (by omega)
    simp [BitVec.getElem_signExtend, hmask]

theorem signed_odd (b : UInt8) : signed b &&& 1 = 1 ↔ b % 2 = 1 := by
  have hmask : signed b &&& 1 = (b &&& 1).toUInt32.toInt32 := signed_and b 1
  rw [hmask, ← Int32.toInt_inj, toInt_unsigned, ← UInt8.toNat_inj, UInt8.toNat_and, UInt8.toNat_mod]
  change ((b.toNat &&& 1 : Nat) : Int) = 1 ↔ b.toNat % 2 = 1
  rw [Nat.and_one_is_mod]
  omega

/-- The bits of a byte from bit 1 on. -/
theorem toNat_and_fe (b : UInt8) : (b &&& 0xfe).toNat = 2 * (b.toNat / 2) := by
  have hb := b.toNat_lt
  have hhigh := @Nat.and_div_two_pow b.toNat 254 1
  have hlow := @Nat.and_mod_two_pow b.toNat 254 1
  rw [show 254 / 2 ^ 1 = 2 ^ 7 - 1 from rfl, Nat.and_two_pow_sub_one_eq_mod] at hhigh
  rw [show 254 % 2 ^ 1 = 0 from rfl, Nat.and_zero] at hlow
  change b.toNat &&& 254 = _
  omega

theorem signed_and_fe (b : UInt8) : signed b &&& 0xfe = 0 ↔ b = 0 ∨ b = 1 := by
  have hmask : signed b &&& 0xfe = (b &&& 0xfe).toUInt32.toInt32 := signed_and b 0xfe
  rw [hmask, ← Int32.toInt_inj, toInt_unsigned, toNat_and_fe, ← UInt8.toNat_inj, ← UInt8.toNat_inj]
  change ((2 * (b.toNat / 2) : Nat) : Int) = 0 ↔ b.toNat = 0 ∨ b.toNat = 1
  omega

section Decoding

variable (c0 c1 c2 c3 c4 c5 c6 c7 c8 : UInt8)

theorem chr_bytes (packet : List UInt8) (h : packet = [c0, c1, c2, c3, c4, c5, c6, c7, c8]) :
    chr packet 0 = signed c0 ∧ chr packet 1 = signed c1 ∧ chr packet 2 = signed c2 ∧
      chr packet 3 = signed c3 ∧ chr packet 4 = signed c4 ∧ chr packet 5 = signed c5 ∧
      chr packet 6 = signed c6 ∧ chr packet 7 = signed c7 ∧ chr packet 8 = signed c8 := by
  subst h
  exact ⟨rfl, rfl, rfl, rfl, rfl, rfl, rfl, rfl, rfl⟩

theorem packetMatchData_stop (packet : List UInt8)
    (h : packet = [c0, c1, c2, c3, c4, c5, c6, c7, c8]) :
    packetMatchData packet 0x4008 0x0900 3 [1, 0] = true ↔
      c0 = 0x1a ∧ c1 = 0x40 ∧ c2 = 0x08 ∧ c3 = 0x09 ∧ (c4 = 0 ∨ c4 = 1) ∧ c5 = 3 ∧ c6 = 1 ∧
        c7 = 0 := by
  obtain ⟨h0, h1, h2, h3, h4, h5, h6, h7, -⟩ := chr_bytes _ _ _ _ _ _ _ _ _ packet h
  have hlength : packet.length = 9 := by rw [h]; rfl
  have hfe : (0x0900 : Int32) &&& 0xfe = 0 := by decide
  have hsidh : (0x4008 : Int32) >>> 8 = signed 0x40 := by decide
  have hsidl : (0x4008 : Int32) &&& 0xff = signed 0x08 := by decide
  have heidh : (0x0900 : Int32) >>> 8 = signed 0x09 := by decide
  have hlen : (Int8.ofNat 3).toInt32 = signed 3 := by decide
  have hcmd : cmdCanPkt = signed 0x1a := by decide
  have hhead : packetMatch packet 0x4008 0x0900 3 = true ↔
      signed c5 = signed 3 ∧ signed c0 = signed 0x1a ∧ signed c1 = signed 0x40 ∧
        signed c2 = signed 0x08 ∧ signed c3 = signed 0x09 ∧ signed c4 &&& 0xfe = 0 := by
    rw [packetMatch, h0, h1, h2, h3, h4, h5, hlength, hfe, hsidh, hsidl, heidh, hlen, hcmd]
    simp
  have hdata : ((List.range [(1 : UInt8), 0].length).all fun i =>
      chr packet (6 + i) == ([(1 : UInt8), 0].getD i 0).toUInt32.toInt32) = true ↔
      signed c6 = signed 1 ∧ signed c7 = signed 0 := by
    have hone : (1 : UInt8).toUInt32.toInt32 = signed 1 := by decide
    have hzero : (0 : UInt8).toUInt32.toInt32 = signed 0 := by decide
    have hrange : List.range [(1 : UInt8), 0].length = [0, 1] := rfl
    simp only [hrange, List.all_cons, List.all_nil, List.getD_cons_zero, List.getD_cons_succ,
      Nat.add_zero, Nat.reduceAdd, h6, h7, hone, hzero, Bool.and_true, Bool.and_eq_true, beq_iff_eq]
  rw [packetMatchData, Bool.and_eq_true, hhead, hdata, signed_and_fe]
  simp only [signed_eq]
  constructor
  · rintro ⟨⟨g5, g0, g1, g2, g3, g4⟩, g6, g7⟩
    exact ⟨g0, g1, g2, g3, g4, g5, g6, g7⟩
  · rintro ⟨g0, g1, g2, g3, g4, g5, g6, g7⟩
    exact ⟨⟨g5, g0, g1, g2, g3, g4⟩, g6, g7⟩

theorem trainMatch_iff (packet : List UInt8)
    (h : packet = [c0, c1, c2, c3, c4, c5, c6, c7, c8]) :
    trainMatch packet = true ↔
      c0 = 0x1a ∧ c1 = 0x40 ∧ c2 = 0x48 ∧ c3 % 2 = 1 ∧ c4 = 0 ∧ c5 = 3 ∧ c7 = 0 := by
  obtain ⟨h0, h1, h2, h3, h4, h5, -, h7, -⟩ := chr_bytes _ _ _ _ _ _ _ _ _ packet h
  have hlength : packet.length = 9 := by rw [h]; rfl
  have hcmd : cmdCanPkt = signed 0x1a := by decide
  have h40 : (0x40 : Int32) = signed 0x40 := by decide
  have h48 : (0x48 : Int32) = signed 0x48 := by decide
  have hzero : (0 : Int32) = signed 0 := by decide
  have hthree : (3 : Int32) = signed 3 := by decide
  have hbytes : trainMatch packet = true ↔
      signed c0 = signed 0x1a ∧ signed c1 = signed 0x40 ∧ signed c2 = signed 0x48 ∧
        signed c3 &&& 1 = 1 ∧ signed c4 = signed 0 ∧ signed c5 = signed 3 ∧
        signed c7 = signed 0 := by
    rw [trainMatch, h0, h1, h2, h3, h4, h5, h7, hlength, hcmd, h40, h48, hzero, hthree]
    simp only [beq_self_eq_true, Bool.true_and, Bool.and_eq_true, beq_iff_eq, and_assoc]
  rw [hbytes, signed_odd]
  simp only [signed_eq]

end Decoding

/-- A packet that has another length than nine bytes, or another first byte than `CMD_CAN_PKT`,
changes nothing. -/
theorem packetArrived_of_length {packet : List UInt8} (h : packet.length ≠ 9)
    (state : LayoutState) (nsec : Nat) : state.packetArrived nsec packet = (state, []) := by
  have hstop : packetMatchData packet 0x4008 0x0900 3 [1, 0] = false := by
    rw [packetMatchData, packetMatch, if_pos h]
    rfl
  have htrain : trainMatch packet = false := by
    rw [trainMatch, beq_eq_false_iff_ne.mpr h]
    simp only [Bool.false_and]
  rw [LayoutState.packetArrived, hstop, htrain]
  simp only [Bool.false_eq_true, if_false, ite_self]

/-- What a packet does, by its content. -/
def LayoutState.deliver (state : LayoutState) (ts : Nat) : HostPacket → LayoutState × List Nat
  | .stop value => state.setStop ts (value != 0)
  | .train address fn value =>
    if fn = 1 then state.setSpeed ts (lokKey address) (signed value)
    else state.setFn ts (lokKey address) (signed fn).toInt (signed value).toInt

theorem decodePacket_of_length {packet : List UInt8} (h : packet.length ≠ 9) :
    decodePacket packet = none := by
  unfold decodePacket
  split
  · exact absurd rfl h
  · rfl

theorem decodePacket_stop {eidl : UInt8} (h : eidl = 0 ∨ eidl = 1) (value : UInt8) :
    decodePacket [0x1a, 0x40, 0x08, 0x09, eidl, 3, 1, 0, value] = some (.stop value) := by
  have hframe : (0x1a : UInt8) = 0x1a ∧ (0x40 : UInt8) = 0x40 ∧ (3 : UInt8) = 3 ∧
      (0 : UInt8) = 0 := ⟨rfl, rfl, rfl, rfl⟩
  rw [decodePacket, if_pos hframe, if_pos ⟨rfl, rfl, h, rfl⟩]

theorem decodePacket_train {address : UInt8} (h : address % 2 = 1) (fn value : UInt8) :
    decodePacket [0x1a, 0x40, 0x48, address, 0, 3, fn, 0, value] =
      some (.train address fn value) := by
  have hframe : (0x1a : UInt8) = 0x1a ∧ (0x40 : UInt8) = 0x40 ∧ (3 : UInt8) = 3 ∧
      (0 : UInt8) = 0 := ⟨rfl, rfl, rfl, rfl⟩
  have hsidl : ¬ ((0x48 : UInt8) = 0x08 ∧ address = 0x09 ∧ ((0 : UInt8) = 0 ∨ (0 : UInt8) = 1) ∧
      fn = 1) := fun hs => absurd hs.1 (by decide)
  rw [decodePacket, if_pos hframe, if_neg hsidl, if_pos ⟨rfl, h, rfl⟩]

theorem signed_ne_zero (b : UInt8) : decide (signed b ≠ 0) = (b != 0) := by
  have hzero : signed b = 0 ↔ b = 0 := signed_eq (a := b) (b := 0)
  by_cases h : b = 0
  · subst h
    decide
  · have hne : signed b ≠ 0 := fun heq => h (hzero.mp heq)
    rw [decide_eq_true hne, bne_iff_ne.mpr h]

/-- The packets that the server looks for are those with a content. -/
theorem packetArrived_eq (state : LayoutState) (nsec : Nat) (packet : List UInt8) :
    state.packetArrived nsec packet =
      (decodePacket packet).elim (state, []) (state.deliver (nsec / 1000)) := by
  by_cases hlen : packet.length = 9
  · obtain ⟨c0, c1, c2, c3, c4, c5, c6, c7, c8, hpacket⟩ : ∃ c0 c1 c2 c3 c4 c5 c6 c7 c8,
        packet = [c0, c1, c2, c3, c4, c5, c6, c7, c8] := by
      match packet, hlen with
      | [c0, c1, c2, c3, c4, c5, c6, c7, c8], _ => exact ⟨c0, c1, c2, c3, c4, c5, c6, c7, c8, rfl⟩
    have hstop := packetMatchData_stop c0 c1 c2 c3 c4 c5 c6 c7 c8 packet hpacket
    have htrain := trainMatch_iff c0 c1 c2 c3 c4 c5 c6 c7 c8 packet hpacket
    obtain ⟨h0, -, -, h3, -, -, h6, -, h8⟩ := chr_bytes c0 c1 c2 c3 c4 c5 c6 c7 c8 packet hpacket
    have hempty : packet.isEmpty = false := by rw [hpacket]; rfl
    have hcmd : cmdCanPkt = signed 0x1a := by decide
    have hone : signed c6 = 1 ↔ c6 = 1 := signed_eq (a := c6) (b := 1)
    have hguard : (packet.isEmpty = true ∨ chr packet 0 ≠ cmdCanPkt) ↔ c0 ≠ 0x1a := by
      rw [hempty, h0, hcmd, Ne, signed_eq]
      simp
    have hbody : state.packetArrived nsec packet =
        if c0 ≠ 0x1a then (state, [])
        else if packetMatchData packet 0x4008 0x0900 3 [1, 0] then
          state.setStop (nsec / 1000) (c8 != 0)
        else if trainMatch packet then
          if c6 = 1 then state.setSpeed (nsec / 1000) (lokKey c3) (signed c8)
          else state.setFn (nsec / 1000) (lokKey c3) (signed c6).toInt (signed c8).toInt
        else (state, []) := by
      rw [LayoutState.packetArrived, if_congr hguard rfl rfl, h3, h6, h8, signed_ne_zero,
        if_congr hone rfl rfl]
      rfl
    have hcmd' : ¬ ((0x1a : UInt8) ≠ 0x1a) := fun h => h rfl
    rw [hbody]
    by_cases hs : packetMatchData packet 0x4008 0x0900 3 [1, 0] = true
    · obtain ⟨rfl, rfl, rfl, rfl, g4, rfl, rfl, rfl⟩ := hstop.mp hs
      rw [if_neg hcmd', if_pos hs, hpacket, decodePacket_stop g4]
      rfl
    by_cases ht : trainMatch packet = true
    · obtain ⟨rfl, rfl, rfl, g3, rfl, rfl, rfl⟩ := htrain.mp ht
      rw [if_neg hcmd', if_neg hs, if_pos ht, hpacket, decodePacket_train g3]
      rfl
    · have hdecode : decodePacket packet = none := by
        rw [hpacket, decodePacket]
        by_cases hframe : c0 = 0x1a ∧ c1 = 0x40 ∧ c5 = 3 ∧ c7 = 0
        · obtain ⟨g0, g1, g5, g7⟩ := hframe
          have hns : ¬ (c2 = 0x08 ∧ c3 = 0x09 ∧ (c4 = 0 ∨ c4 = 1) ∧ c6 = 1) := by
            rintro ⟨g2, g3, g4, g6⟩
            exact hs (hstop.mpr ⟨g0, g1, g2, g3, g4, g5, g6, g7⟩)
          have hnt : ¬ (c2 = 0x48 ∧ c3 % 2 = 1 ∧ c4 = 0) := by
            rintro ⟨g2, g3, g4⟩
            exact ht (htrain.mpr ⟨g0, g1, g2, g3, g4, g5, g7⟩)
          rw [if_pos ⟨g0, g1, g5, g7⟩, if_neg hns, if_neg hnt]
        · rw [if_neg hframe]
      rw [if_neg hs, if_neg ht, ite_self, hdecode]
      rfl
  · rw [packetArrived_of_length hlen, decodePacket_of_length hlen]
    rfl

/-! ### The values that the server takes from the bytes -/

theorem signed_of_lt {b : UInt8} (h : b.toNat < 128) : (signed b).toInt = b.toNat := by
  rw [toInt_signed]
  exact BitVec.toInt_eq_toNat_of_lt (by rw [UInt8.toNat_toBitVec]; omega)

theorem lokKey_of_lt {address : UInt8} (h : address.toNat < 128) :
    lokKey address = (address.toNat / 4 : Nat) := by
  have htwo : (2 : Int32).toBitVec.smod 32 = 2#32 := by decide
  rw [lokKey, Int32.toInt, Int32.toBitVec_shiftRight, htwo]
  change ((signed address).toBitVec.sshiftRight 2).toInt = _
  rw [BitVec.toInt_sshiftRight]
  change (signed address).toInt >>> (2 : Nat) = _
  rw [signed_of_lt h, Int.shiftRight_eq_div_pow]
  rfl

/-- The direction and the speed of a speed packet are the upper bit and the others of its value,
whether the value is signed or not. -/
def speedValue (value : UInt8) : Int × Int :=
  (if value.toNat < 128 then 1 else -1, (value.toNat % 128 : Nat))

/-- The upper bit of a byte. -/
theorem toNat_and_80 (b : UInt8) : (b &&& 0x80).toNat = 128 * (b.toNat / 128) := by
  have hb := b.toNat_lt
  have hhigh := @Nat.and_div_two_pow b.toNat 128 7
  have hlow := @Nat.and_mod_two_pow b.toNat 128 7
  rw [show 128 / 2 ^ 7 = 1 from rfl, Nat.and_one_is_mod] at hhigh
  rw [show 128 % 2 ^ 7 = 0 from rfl, Nat.and_zero] at hlow
  change b.toNat &&& 128 = _
  omega

theorem speedValue_eq (value : UInt8) : speedValue value =
    (if signed value &&& 0x80 ≠ 0 then -1 else 1, (signed value &&& 0x7f).toInt) := by
  have hdir : signed value &&& 0x80 = (value &&& 0x80).toUInt32.toInt32 := signed_and value 0x80
  have hspeed : signed value &&& 0x7f = (value &&& 0x7f).toUInt32.toInt32 := signed_and value 0x7f
  have hzero : (value &&& 0x80).toUInt32.toInt32 = 0 ↔ value.toNat < 128 := by
    have hb := value.toNat_lt
    rw [← Int32.toInt_inj, toInt_unsigned, toNat_and_80]
    change ((128 * (value.toNat / 128) : Nat) : Int) = 0 ↔ _
    omega
  have hlow : (value &&& 0x7f).toNat = value.toNat % 128 :=
    Nat.and_two_pow_sub_one_eq_mod value.toNat 7
  rw [speedValue, hdir, hspeed, toInt_unsigned, hlow]
  simp only [ne_eq, hzero, ite_not]
/-! ### What a packet changes -/

/-- The value of a function, if the train has the function. -/
def LokState.fnValue (st : LokState) (n : Int) : Option Int := st.fn[n]?.map (·.value)

/-- The direction and the speed. -/
def LokState.speedValue (st : LokState) : Int × Int := (st.speedAndDir.dir, st.speedAndDir.speed)

/-- All that an entry tells of its train. -/
def LokState.values (st : LokState) : (Int × Int) × (Int → Option Int) :=
  (st.speedValue, st.fnValue)

@[simp] theorem LokState.values_touched (st : LokState) (ts : Nat) :
    (st.touched ts).values = st.values := rfl

section Changes

variable (state : LayoutState) (ts : Nat)

theorem setStop_stop (value : Bool) : (state.setStop ts value).1.stop = value := by
  by_cases h : value = state.stop
  · simp [LayoutState.setStop, h]
  · simp [LayoutState.setStop, h, LayoutState.touchAllLoks, LayoutState.touched]

theorem setStop_mem (value : Bool) {k : Int} :
    k ∈ (state.setStop ts value).1.loks ↔ k ∈ state.loks := by
  by_cases h : value = state.stop
  · simp [LayoutState.setStop, h]
  · simp [LayoutState.setStop, h, LayoutState.touchAllLoks]

theorem setStop_values (value : Bool) (k : Int) :
    (state.setStop ts value).1.loks[k]?.map LokState.values =
      state.loks[k]?.map LokState.values := by
  by_cases h : value = state.stop
  · simp [LayoutState.setStop, h]
  · simp [LayoutState.setStop, h, LayoutState.touchAllLoks, Function.comp_def]

/-- A speed packet writes the entry of its key, and leaves the functions there. -/
theorem setSpeed_eq (key : Int) (value : UInt8) :
    ∃ st, (state.setSpeed ts key (signed value)).1.loks = state.loks.insert key st ∧
      st.speedValue = speedValue value ∧ st.fnValue = (state.lok key).fnValue ∧
      (state.setSpeed ts key (signed value)).1.stop = state.stop := by
  have hvalue := speedValue_eq value
  by_cases h : (if signed value &&& 0x80 ≠ 0 then -1 else 1) ≠ (state.lok key).speedAndDir.dir ∨
      (signed value &&& 0x7f).toInt ≠ (state.lok key).speedAndDir.speed
  · rw [hvalue]
    simp only [LayoutState.setSpeed, if_pos h]
    exact ⟨_, rfl, rfl, rfl, rfl⟩
  · rw [not_or, not_not, not_not] at h
    have hsame : (state.lok key).speedValue = speedValue value := by
      rw [hvalue, h.1, h.2]
      rfl
    simp only [LayoutState.setSpeed, h.1, h.2, ne_eq, not_true_eq_false, or_self, if_false]
    exact ⟨_, rfl, hsame, rfl, rfl⟩

/-- A packet for another function writes its value in the entry of its key, and leaves the rest
there. -/
theorem setFn_eq (key fnid value : Int) :
    ∃ st, (state.setFn ts key fnid value).1.loks = state.loks.insert key st ∧
      st.speedValue = (state.lok key).speedValue ∧
      (∀ n, st.fnValue n = if n = fnid then some value else (state.lok key).fnValue n) ∧
      (state.setFn ts key fnid value).1.stop = state.stop := by
  have hinsert : ∀ (fst : FnState) n, fst.value = value →
      ((state.lok key).fn.insert fnid fst)[n]?.map (·.value) =
        if n = fnid then some value else (state.lok key).fnValue n := by
    intro fst n hfst
    rw [getElem?_insert]
    by_cases hn : n = fnid
    · rw [if_pos hn, if_pos hn, Option.map_some, hfst]
    · rw [if_neg hn, if_neg hn]
      rfl
  by_cases h : ((state.lok key).fn[fnid]?.getD {}).value = value
  · simp only [LayoutState.setFn, h, ne_eq, not_true_eq_false, if_false]
    exact ⟨_, rfl, rfl, fun n => hinsert _ n h, rfl⟩
  · simp only [LayoutState.setFn, ne_eq, h, not_false_eq_true, if_true]
    exact ⟨_, rfl, rfl, fun n => hinsert _ n rfl, rfl⟩

end Changes

/-! ### The mirror -/

/-- The packets of `packets` are delivered one after the other, each with what the clock shows. -/
def LayoutState.receive (state : LayoutState) (packets : List (Nat × List UInt8)) : LayoutState :=
  packets.foldl (fun state p => (state.packetArrived p.1 p.2).1) state

/-- What `f` finds in the last packet in which it finds something. -/
def lastOf {α : Type} (f : HostPacket → Option α) (packets : List (Nat × List UInt8)) : Option α :=
  packets.reverse.findSome? fun p => (decodePacket p.2).bind f

def stopOf : HostPacket → Option Bool
  | .stop value => some (value != 0)
  | .train .. => none

/-- The train that a packet names. -/
def trainOf : HostPacket → Option Nat
  | .stop _ => none
  | .train address .. => some (address.toNat / 4)

/-- The direction and speed in a speed packet for train `i`; function 1 is the speed. -/
def speedOf (i : Nat) : HostPacket → Option (Int × Int)
  | .stop _ => none
  | .train address fn value =>
    if address.toNat / 4 = i ∧ fn = 1 then some (speedValue value) else none

/-- The value in a packet for function `n` of train `i`. -/
def fnOf (i n : Nat) : HostPacket → Option Int
  | .stop _ => none
  | .train address fn value =>
    if address.toNat / 4 = i ∧ fn.toNat = n ∧ fn ≠ 1 then some value.toNat else none

/-- The state holds the last values from the bus, and a train that was named has an entry. -/
structure Holds (state : LayoutState) (packets : List (Nat × List UInt8)) : Prop where
  stop : state.stop = (lastOf stopOf packets).getD true
  named : ∀ i : Nat, i < 64 → ∀ p ∈ packets, (decodePacket p.2).bind trainOf = some i →
    (i : Int) ∈ state.loks
  speed : ∀ i : Nat, i < 64 →
    (state.lok i).speedValue = (lastOf (speedOf i) packets).getD (1, 0)
  fn : ∀ i n : Nat, i < 64 → n < 256 → ∀ value, lastOf (fnOf i n) packets = some value →
    (state.lok i).fnValue n = some value

/-- A packet leaves the entries of all trains but the one that it names, and makes no entry under a
key that is not a train. -/
structure Confined (packet : List UInt8) (state state' : LayoutState) : Prop where
  others : ∀ k : Int, (∀ i, (decodePacket packet).bind trainOf = some i → (i : Int) ≠ k) →
    state'.loks[k]?.map LokState.values = state.loks[k]?.map LokState.values
  keys : ∀ k ∈ state'.loks, k ∈ state.loks ∨ (0 ≤ k ∧ k < 64)

/-- The state mirrors the bus all along a sequence of packets after `ZeroLayoutState`. -/
def MirrorsBus (lokdb : List LokDbEntry) (packets : List (Nat × List UInt8)) : Prop :=
  ∀ before after, packets = before ++ after →
    let state := (LayoutState.zeroLayoutState {} lokdb).receive before
    Holds state before ∧
      ∀ p ∈ after.head?, Confined p.2 state (state.packetArrived p.1 p.2).1

/-- A packet for a train below 32 and a function below 128, with a value below 128 unless it is the
speed. -/
def PlainPacket (packet : List UInt8) : Prop :=
  ∀ address fn value, decodePacket packet = some (.train address fn value) →
    address.toNat < 128 ∧ fn.toNat < 128 ∧ (fn ≠ 1 → value.toNat < 128)

theorem receive_concat (state : LayoutState) (packets : List (Nat × List UInt8))
    (p : Nat × List UInt8) :
    state.receive (packets ++ [p]) = ((state.receive packets).packetArrived p.1 p.2).1 := by
  simp [LayoutState.receive]

theorem lastOf_concat {α : Type} (f : HostPacket → Option α) (packets : List (Nat × List UInt8))
    (p : Nat × List UInt8) :
    lastOf f (packets ++ [p]) = ((decodePacket p.2).bind f).or (lastOf f packets) := by
  rw [lastOf, List.reverse_append, List.reverse_singleton, List.singleton_append,
    List.findSome?_cons]
  cases (decodePacket p.2).bind f with
  | none => rfl
  | some x => rfl

theorem lok_insert {state state' : LayoutState} {key : Int} {st : LokState}
    (h : state'.loks = state.loks.insert key st) (k : Int) :
    state'.lok k = if k = key then st else state.lok k := by
  rw [LayoutState.lok, h, getElem?_insert]
  by_cases hk : k = key
  · rw [if_pos hk, if_pos hk]
    rfl
  · rw [if_neg hk, if_neg hk]
    rfl

/-- What a train packet with plain bytes leaves: the entry of the train, with the new speed or the
new value of the function, and everything else as it was. -/
theorem deliver_train (state : LayoutState) (ts : Nat) {address fn value : UInt8}
    (haddress : address.toNat < 128) (hfn : fn.toNat < 128)
    (hvalue : fn ≠ 1 → value.toNat < 128) :
    ∃ st, (state.deliver ts (.train address fn value)).1.loks =
        state.loks.insert (address.toNat / 4 : Nat) st ∧
      st.speedValue = (if fn = 1 then speedValue value
        else (state.lok (address.toNat / 4 : Nat)).speedValue) ∧
      (∀ n : Nat, st.fnValue n = if n = fn.toNat ∧ fn ≠ 1 then some (value.toNat : Int)
        else (state.lok (address.toNat / 4 : Nat)).fnValue n) ∧
      (state.deliver ts (.train address fn value)).1.stop = state.stop := by
  rw [LayoutState.deliver, lokKey_of_lt haddress]
  by_cases h1 : fn = 1
  · subst h1
    obtain ⟨st, hloks, hspeed, hfns, hstop⟩ :=
      setSpeed_eq state ts (address.toNat / 4 : Nat) value
    rw [if_pos rfl]
    refine ⟨st, hloks, by rw [if_pos rfl, hspeed], fun n => ?_, hstop⟩
    rw [if_neg (by simp), hfns]
  · obtain ⟨st, hloks, hspeed, hfns, hstop⟩ :=
      setFn_eq state ts (address.toNat / 4 : Nat) (signed fn).toInt (signed value).toInt
    rw [if_neg h1]
    refine ⟨st, hloks, by rw [if_neg h1, hspeed], fun n => ?_, hstop⟩
    rw [hfns, signed_of_lt hfn, signed_of_lt (hvalue h1)]
    simp [h1]

/-- The state takes over the values of a packet, and keeps the others. -/
structure Tracks (content : Option HostPacket) (state state' : LayoutState) : Prop where
  stop : state'.stop = (content.bind stopOf).getD state.stop
  mem : ∀ k, k ∈ state'.loks ↔
    k ∈ state.loks ∨ ∃ i, content.bind trainOf = some i ∧ (i : Int) = k
  speed : ∀ i : Nat, (state'.lok i).speedValue =
    (content.bind (speedOf i)).getD (state.lok i).speedValue
  fn : ∀ i n : Nat, (state'.lok i).fnValue n =
    (content.bind (fnOf i n)).or ((state.lok i).fnValue n)
  others : ∀ k : Int, (∀ i, content.bind trainOf = some i → (i : Int) ≠ k) →
    state'.loks[k]?.map LokState.values = state.loks[k]?.map LokState.values

section Step

variable {state state' : LayoutState}

theorem Tracks.refl (state : LayoutState) : Tracks none state state where
  stop := rfl
  mem := by simp
  speed _ := rfl
  fn _ _ := rfl
  others _ _ := rfl

theorem lok_values {k : Int} (h : state'.loks[k]?.map LokState.values =
    state.loks[k]?.map LokState.values) : (state'.lok k).values = (state.lok k).values := by
  rw [LayoutState.lok, LayoutState.lok]
  cases hold : state.loks[k]? with
  | none =>
    rw [hold, Option.map_none, Option.map_eq_none_iff] at h
    rw [h]
  | some st =>
    rw [hold, Option.map_some, Option.map_eq_some_iff] at h
    obtain ⟨st', hst', h⟩ := h
    rw [hst']
    exact h

theorem tracks_setStop (state : LayoutState) (ts : Nat) (value : UInt8) :
    Tracks (some (.stop value)) state (state.setStop ts (value != 0)).1 where
  stop := setStop_stop state ts _
  mem k := by
    rw [setStop_mem]
    simp [trainOf]
  speed i := congrArg Prod.fst (lok_values (setStop_values state ts _ i))
  fn i n := congrFun (congrArg Prod.snd (lok_values (setStop_values state ts _ i))) n
  others k _ := setStop_values state ts _ k

theorem tracks_train (state : LayoutState) (ts : Nat) {address fn value : UInt8}
    (haddress : address.toNat < 128) (hfn : fn.toNat < 128)
    (hvalue : fn ≠ 1 → value.toNat < 128) :
    Tracks (some (.train address fn value)) state
      (state.deliver ts (.train address fn value)).1 := by
  obtain ⟨st, hloks, hspeed, hfns, hstop⟩ := deliver_train state ts haddress hfn hvalue
  refine ⟨hstop, fun k => ?_, fun i => ?_, fun i n => ?_, fun k hk => ?_⟩
  · rw [hloks, Std.TreeMap.mem_insert]
    simp [trainOf, or_comm]
  · rw [lok_insert hloks]
    by_cases hi : address.toNat / 4 = i
    · subst hi
      rw [if_pos rfl, hspeed]
      by_cases h1 : fn = 1 <;> simp [speedOf, h1]
    · rw [if_neg (by omega)]
      simp [speedOf, hi]
  · rw [lok_insert hloks]
    by_cases hi : address.toNat / 4 = i
    · subst hi
      rw [if_pos rfl, hfns]
      by_cases hn : n = fn.toNat ∧ fn ≠ 1
      · rw [if_pos hn]
        simp [fnOf, hn.1, hn.2]
      · rw [if_neg hn]
        have hn' : ¬ (fn.toNat = n ∧ fn ≠ 1) := fun h => hn ⟨h.1.symm, h.2⟩
        simp [fnOf, hn']
    · rw [if_neg (by omega)]
      simp [fnOf, hi]
  · have hne := hk _ rfl
    rw [hloks, getElem?_insert, if_neg hne.symm]

/-- One packet with plain bytes. -/
theorem tracks_packetArrived (state : LayoutState) (nsec : Nat) {packet : List UInt8}
    (hplain : PlainPacket packet) :
    Tracks (decodePacket packet) state (state.packetArrived nsec packet).1 := by
  rw [packetArrived_eq]
  cases hp : decodePacket packet with
  | none => exact Tracks.refl state
  | some content =>
    cases content with
    | stop value => exact tracks_setStop state _ value
    | train address fn value =>
      obtain ⟨haddress, hfn, hvalue⟩ := hplain address fn value hp
      exact tracks_train state _ haddress hfn hvalue

theorem Holds.concat {packets : List (Nat × List UInt8)} {p : Nat × List UInt8}
    (h : Holds state packets) (htracks : Tracks (decodePacket p.2) state state') :
    Holds state' (packets ++ [p]) := by
  refine ⟨?_, fun i hi q hq hname => ?_, fun i hi => ?_, fun i n hi hn value hvalue => ?_⟩
  · rw [htracks.stop, lastOf_concat, h.stop]
    cases (decodePacket p.2).bind stopOf <;> rfl
  · rw [htracks.mem]
    rcases List.mem_append.mp hq with hq | hq
    · exact .inl (h.named i hi q hq hname)
    · rw [List.mem_singleton.mp hq] at hname
      exact .inr ⟨i, hname, rfl⟩
  · rw [htracks.speed, lastOf_concat, h.speed i hi]
    cases (decodePacket p.2).bind (speedOf i) <;> rfl
  · rw [lastOf_concat] at hvalue
    rw [htracks.fn]
    cases hnew : (decodePacket p.2).bind (fnOf i n) with
    | none =>
      rw [hnew] at hvalue
      exact h.fn i n hi hn value hvalue
    | some value' =>
      rw [hnew] at hvalue
      exact hvalue

/-- The trains have six bits. -/
theorem Tracks.confined {packet : List UInt8} (h : Tracks (decodePacket packet) state state') :
    Confined packet state state' := by
  refine ⟨h.others, fun k hk => ?_⟩
  rcases (h.mem k).mp hk with hk | ⟨i, hname, rfl⟩
  · exact .inl hk
  · refine .inr ⟨by omega, ?_⟩
    obtain ⟨content, -, hname⟩ := Option.bind_eq_some_iff.mp hname
    cases content with
    | stop value => cases hname
    | train address fn value =>
      have haddress := address.toNat_lt
      cases hname
      omega

end Step

/-- After `ZeroLayoutState` the emergency stop is on, and the trains stand and face forward. -/
theorem holds_zeroLayoutState (lokdb : List LokDbEntry) :
    Holds (LayoutState.zeroLayoutState {} lokdb) [] := by
  have hzero : (LayoutState.zeroLayoutState {} lokdb).stop = true ∧
      ∀ k, ((LayoutState.zeroLayoutState {} lokdb).lok k).speedValue = (1, 0) := by
    refine List.foldlRecOn lokdb _ (motive := fun state : LayoutState => state.stop = true ∧
      ∀ k, (state.lok k).speedValue = (1, 0)) ?_ ?_
    · refine ⟨rfl, fun k => ?_⟩
      simp [LayoutState.lok, LokState.speedValue]
    · rintro state ⟨hstop, hspeed⟩ lok -
      refine ⟨hstop, fun k => ?_⟩
      rw [lok_insert rfl]
      by_cases hk : k = lok.id
      · rw [if_pos hk]
        exact hspeed lok.id
      · rw [if_neg hk]
        exact hspeed k
  refine ⟨hzero.1, by simp, fun i _ => hzero.2 i, ?_⟩
  intro i n _ _ value hvalue
  cases hvalue

/-- As long as the packets are plain, the state holds the last values from the bus. -/
theorem holds_receive (lokdb : List LokDbEntry) {packets : List (Nat × List UInt8)}
    (hplain : ∀ p ∈ packets, PlainPacket p.2) :
    Holds ((LayoutState.zeroLayoutState {} lokdb).receive packets) packets := by
  induction packets using List.reverseRecOn with
  | nil => exact holds_zeroLayoutState lokdb
  | append_singleton packets p ih =>
    have hbefore : ∀ q ∈ packets, PlainPacket q.2 := fun q hq =>
      hplain q (List.mem_append_left _ hq)
    have hp : PlainPacket p.2 := hplain p (by simp)
    rw [receive_concat]
    exact (ih hbefore).concat (tracks_packetArrived _ p.1 hp)

/-- In every sequence of plain packets the state mirrors the bus. -/
theorem mirrorsBus_of_plain (lokdb : List LokDbEntry) (packets : List (Nat × List UInt8))
    (hplain : ∀ p ∈ packets, PlainPacket p.2) : MirrorsBus lokdb packets := by
  rintro before after rfl
  refine ⟨holds_receive lokdb fun p hp => hplain p (List.mem_append_left _ hp), fun p hp => ?_⟩
  have hmem : p ∈ after := List.mem_of_mem_head? hp
  exact (tracks_packetArrived _ p.1 (hplain p (List.mem_append_right _ hmem))).confined

/-- Speeds for the trains 31 and 0, a function of train 31, and the end of the emergency stop. -/
def samplePackets : List (Nat × List UInt8) :=
  [(137000, [0x1a, 0x40, 0x48, 0x7d, 0, 3, 1, 0, 0xa0]),
    (138000, [0x1a, 0x40, 0x48, 0x01, 0, 3, 1, 0, 0x20]),
    (138000, [0x1a, 0x40, 0x48, 0x7d, 0, 3, 5, 0, 0x7f]),
    (142000, [0x1a, 0x40, 0x08, 0x09, 1, 3, 1, 0, 0])]

theorem samplePackets_mirrored : MirrorsBus [⟨31, [5]⟩] samplePackets := by
  refine mirrorsBus_of_plain _ _ fun p hp address fn value hdecode => ?_
  simp only [samplePackets, List.mem_cons, List.not_mem_nil, or_false] at hp
  rcases hp with rfl | rfl | rfl | rfl <;> cases hdecode <;> decide

/-- A speed packet for train 32 makes an entry under the key -32. -/
theorem train_32_not_mirrored :
    ¬ MirrorsBus [] [(137000, [0x1a, 0x40, 0x48, 0x81, 0, 3, 1, 0, 0x20])] := by
  intro h
  have hconfined := (h [] _ rfl).2 _ rfl
  rcases hconfined.keys (-32) (by decide) with hk | ⟨hk, -⟩
  · exact absurd hk (by decide)
  · exact absurd hk (by decide)

end OpenmrnCue.Server
