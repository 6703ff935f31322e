import Mathlib.Data.BitVec
import Mathlib.Tactic.IntervalCases

/-! The locomotives of `dcc-master.cpp` and the packets that are made for them, in the protocol of
DCC and in those of Marklin.  What a packet of Marklin says can be told from its bits: the address
up to multiples of 81, the light, and either the speed with the direction or the speed with the
value of one function. -/

namespace OpenmrnCue.DccMaster

abbrev Byte := BitVec 8

/-- The values of `DccMode` that the code looks at. -/
def marklinOld : BitVec 3 := 0
def marklinNew : BitVec 3 := 1
def dcc14 : BitVec 3 := 4

/-- `dcc_loco_t`, less the name.  The lower seven bits of `speed` are the speed, the highest one is
the direction. -/
structure Loco where
  address : Byte
  speed : Byte
  fn : BitVec 16
  relativeSpeed : Byte
  fncount : Nat
  loopPosition : BitVec 4
  loopAtSpeed : Bool
  driveType : BitVec 3
  dirChanged : Bool
  paused : Bool
  reversed : Bool
  isPushpull : Bool
deriving DecidableEq, Repr

/-- `drive_type & 0b100`. -/
def Loco.isDcc (l : Loco) : Bool := l.driveType.getLsbD 2

/-- `GetSpeedForTrain`. -/
def getSpeedForTrain (l : Loco) : Nat :=
  if l.paused then 0
  else min 64 ((l.speed &&& 0x7f).toNat * l.relativeSpeed.toNat / 16)

/-- `IsTrainMovingReverse`. -/
def isTrainMovingReverse (l : Loco) : Bool := l.speed.getLsbD 7 ^^ l.reversed

/-! ### Marklin -/

/-- `marklin_address`. -/
def marklinAddress : Nat → Byte
  | 0 => 0b00
  | 1 => 0b11
  | _ => 0b10

/-- `marklin_fn_bits`. -/
def marklinFnBits : Nat → Byte
  | 0 => 0
  | 1 => 0b01010000
  | 2 => 0b00000100
  | 3 => 0b00010100
  | _ => 0b01010100

/-- The speed step for a speed: 0, or from 2 to 15. -/
def marklinStep (speed : Nat) : Nat :=
  let sp := (if 0 < speed then speed + 8 else speed) / 9
  min 15 (if 0 < sp then sp + 1 else sp)

/-- The bits of a speed step. -/
def marklinStepBits (sp : Nat) : Byte :=
  (if sp.testBit 0 then 0x80 else 0) ||| (if sp.testBit 1 then 0x20 else 0) |||
    (if sp.testBit 2 then 0x08 else 0) ||| if sp.testBit 3 then 0x02 else 0

/-- The bytes of a Marklin packet, with the speed step. -/
structure MarklinBits where
  b0 : Byte
  b1 : Byte
  b2 : Byte
  sp : Nat

/-- `GetMarklinAddressAndSpeed`. -/
def getMarklinAddressAndSpeed (address : Byte) (speed : Nat) : MarklinBits :=
  let a := address.toNat
  let sp := marklinStep speed
  { b0 := marklinAddress (a % 3)
    b1 := marklinAddress (a / 3 % 3) <<< 6 ||| marklinAddress (a / 3 / 3 % 3) <<< 4 |||
      marklinAddress (a / 3 / 3 / 3 % 3) <<< 2
    b2 := marklinStepBits sp
    sp }

def marklinDefaultCmd : Byte := 0b00100110

/-- The repetitions that a packet gets which must be heard. -/
def marklinRepeats : Byte := 0b01100000

/-- The last byte of a packet for a function. -/
def marklinFnByte (sp position : Nat) (on : Bool) : Byte :=
  let b2 := marklinStepBits sp ||| (if on then 1 else 0) ||| marklinFnBits position
  -- These bits are also valid for the old protocol.
  if (b2 &&& 0xaa) >>> 1 = b2 &&& 0x55 then
    (b2 &&& 0xaa) ||| if 8 ≤ sp then 0b00010001 else 0b01000100
  else b2

/-- The last byte of a packet for the speed, in the new protocol. -/
def marklinSpeedByte (sp : Nat) (reverse : Bool) : Byte :=
  marklinStepBits sp ||| (if reverse then 0x44 else 0x10) ||| if sp ≤ 7 then 1 else 0

/-- The last byte of a packet for the speed, in the old protocol. -/
def marklinOldByte (sp : Nat) : Byte := marklinStepBits sp ||| marklinStepBits sp >>> 1

/-- The aux function is turned on in the second byte. -/
def marklinLight (b1 : Byte) (l : Loco) : Byte := if l.fn.getLsbD 0 then b1 ^^^ 0b11 else b1

/-! ### Packets -/

def dccDefaultCmd : Byte := 0

/-- `SendDccPacket`: the data of the packet on the bus, of `len` bytes behind the command. -/
def dccPacket (cmd : Byte) (len : Nat) (d1 d2 d3 : Byte) : List Byte :=
  [cmd, d1, d2, d3].take (len + 1)

/-- The bytes of DCC for the functions in the group of the position. -/
def dccFnBytes (fn : BitVec 16) (position : Nat) : Nat × Byte × Byte :=
  if position ≤ 4 then
    (2, 0b10000000 ||| (if fn.getLsbD 0 then 0b00010000 else 0) |||
      ((fn &&& 0b00011110) >>> 1).setWidth 8, 0)
  else if position ≤ 8 then (2, 0b10110000 ||| ((fn >>> 5) &&& 0x0f).setWidth 8, 0)
  else if position ≤ 12 then (2, 0b10100000 ||| ((fn >>> 9) &&& 0x0f).setWidth 8, 0)
  else (3, 0b11011110, ((fn >>> 13) &&& 0xff).setWidth 8)

/-- `SendLocoFnPacket`.  A drive type has no bit for two addresses, so that the higher functions of
Marklin are not sent. -/
def sendLocoFnPacket (l : Loco) (position : Nat) (prio : Bool) : Option (List Byte) :=
  if l.isDcc then
    let (len, b1, b2) := dccFnBytes l.fn position
    some (dccPacket (dccDefaultCmd ||| if prio then 0b00100000 else 0) len (l.address &&& 0x7f) b1
      b2)
  else if l.driveType &&& 0b011 < marklinNew then none
  else if 4 < position then none
  else
    let a := getMarklinAddressAndSpeed l.address (getSpeedForTrain l)
    some [marklinDefaultCmd ||| (if prio then marklinRepeats else 0), a.b0, marklinLight a.b1 l,
      marklinFnByte a.sp position (l.fn.getLsbD position)]

/-- The speed step of DCC for a speed: 0, or from 4 to 31. -/
def dccStep (speed : Nat) : Nat :=
  let sp := (if 0 < 2 * speed then 2 * speed + 7 else 2 * speed) / 9
  min 31 (if 0 < sp then sp + 3 else sp)

/-- The bits of a speed step of DCC. -/
def dccStepBits (sp : Nat) : Byte :=
  (BitVec.ofNat 8 (sp >>> 1) &&& 0x0f) ||| if sp.testBit 0 then 0b00010000 else 0

/-- With 14 speed steps the last bit of the step is the light. -/
def dccLight (b1 : Byte) (l : Loco) : Byte :=
  if l.driveType = dcc14 then
    if l.fn.getLsbD 0 then b1 ||| 0b00010000 else b1 &&& ~~~0b00010000
  else b1

/-- `SendDccLocoSpeedPacket`. -/
def sendDccLocoSpeedPacket (l : Loco) (prio : Bool) : Loco × List Byte :=
  if l.isDcc then
    let b1 := 0b01000000 ||| if isTrainMovingReverse l then (0 : Byte) else 0b00100000
    if l.dirChanged then
      -- Emergency stop in the new direction.
      ({ l with dirChanged := false }, dccPacket (dccDefaultCmd ||| 0b00100000) 2
        (l.address &&& 0x7f) (dccLight (b1 ||| 1) l) 0)
    else
      (l, dccPacket (dccDefaultCmd ||| if prio then 0b00100000 else 0) 2 (l.address &&& 0x7f)
        (dccLight (b1 ||| dccStepBits (dccStep (getSpeedForTrain l))) l) 0)
  else
    let a := getMarklinAddressAndSpeed l.address (getSpeedForTrain l)
    let b1 := marklinLight a.b1 l
    if l.dirChanged then
      -- The old command for a change of the direction.
      ({ l with dirChanged := false },
        [marklinDefaultCmd ||| marklinRepeats, a.b0, b1, 0b11000000])
    else if l.driveType = marklinOld then
      (l, [marklinDefaultCmd ||| marklinRepeats, a.b0, b1, marklinOldByte a.sp])
    else
      (l, [marklinDefaultCmd ||| (if prio then marklinRepeats else 0), a.b0, b1,
        marklinSpeedByte a.sp (isTrainMovingReverse l)])

/-! ### What the packets say -/

/-- No packet has the step 1, and the step 0 stands for a train that does not move. -/
theorem marklinStep_spec (speed : Nat) :
    marklinStep speed ≤ 15 ∧ marklinStep speed ≠ 1 ∧ (marklinStep speed = 0 ↔ speed = 0) := by
  simp only [marklinStep]
  split <;> split <;> omega

theorem dccStep_spec (speed : Nat) :
    dccStep speed ≤ 31 ∧ (dccStep speed = 0 ∨ 4 ≤ dccStep speed) ∧
      (dccStep speed = 0 ↔ speed = 0) := by
  simp only [dccStep]
  split <;> split <;> omega

/-- What the last byte of a Marklin packet says. -/
inductive MarklinMeaning where
  | old (sp : Nat)
  | speed (sp : Nat) (reverse : Bool)
  | function (sp position : Nat) (on : Bool)
deriving DecidableEq, Repr

/-- The speed step in the last byte of a Marklin packet. -/
def stepOfBits (b2 : Byte) : Nat :=
  (if b2.getLsbD 7 then 1 else 0) + (if b2.getLsbD 5 then 2 else 0) +
    (if b2.getLsbD 3 then 4 else 0) + if b2.getLsbD 1 then 8 else 0

/-- The function whose packets have these bits. -/
def functionOfBits (bits : Byte) : Option (Nat × Bool) :=
  match bits &&& 0b01010100 with
  | 0 => some (0, bits.getLsbD 0)
  | 0b01010000 => some (1, bits.getLsbD 0)
  | 0b00000100 => some (2, bits.getLsbD 0)
  | 0b00010100 => some (3, bits.getLsbD 0)
  | 0b01010100 => some (4, bits.getLsbD 0)
  | _ => none

/-- The last byte of a Marklin packet as a decoder reads it. -/
def marklinMeaning (b2 : Byte) : Option MarklinMeaning :=
  let sp := stepOfBits b2
  let bits := b2 &&& 0x55
  let doubled := (b2 &&& 0xaa) >>> 1
  if bits = doubled then some (.old sp)
  else if bits = if sp ≤ 7 then 0x11 else 0x10 then some (.speed sp false)
  else if bits = if sp ≤ 7 then 0x45 else 0x44 then some (.speed sp true)
  else
    -- These bits stand for those that the old protocol has.
    let bits := if bits = if sp ≤ 7 then 0x44 else 0x11 then doubled else bits
    (functionOfBits bits).map fun (position, on) => .function sp position on

theorem marklinMeaning_old : ∀ sp ≤ 15, marklinMeaning (marklinOldByte sp) = some (.old sp) := by
  decide

theorem marklinMeaning_speed : ∀ sp ≤ 15, ∀ reverse,
    marklinMeaning (marklinSpeedByte sp reverse) = some (.speed sp reverse) := by
  decide

theorem marklinMeaning_function : ∀ sp ≤ 15, ∀ position ≤ 4, ∀ on,
    marklinMeaning (marklinFnByte sp position on) = some (.function sp position on) := by
  decide

/-- A digit of a Marklin address. -/
def marklinDigit (b : Byte) : Nat :=
  match b &&& 0b11 with
  | 0b00 => 0
  | 0b11 => 1
  | _ => 2

/-- A Marklin packet as a decoder reads it: the address, the light, and the last byte. -/
def readMarklin : List Byte → Option (Nat × Bool × MarklinMeaning)
  | [_, b0, b1, b2] => (marklinMeaning b2).map fun meaning =>
    (marklinDigit b0 + 3 * marklinDigit (b1 >>> 6) + 9 * marklinDigit (b1 >>> 4) +
      27 * marklinDigit (b1 >>> 2), b1 &&& 0b11 = 0b11, meaning)
  | _ => none

theorem marklinDigit_b0 : ∀ i < 3, marklinDigit (marklinAddress i) = i := by decide

/-- The second byte has three digits and the light. -/
theorem marklinDigit_b1 : ∀ i < 3, ∀ j < 3, ∀ k < 3, ∀ light : Bool,
    let b1 := marklinAddress i <<< 6 ||| marklinAddress j <<< 4 ||| marklinAddress k <<< 2
    let b1 : Byte := if light then b1 ^^^ 0b11 else b1
    marklinDigit (b1 >>> 6) = i ∧ marklinDigit (b1 >>> 4) = j ∧ marklinDigit (b1 >>> 2) = k ∧
      (b1 &&& 0b11 = 0b11 ↔ light) := by
  decide

/-- A packet for the locomotive with this last byte. -/
theorem readMarklin_packet (l : Loco) (cmd b2 : Byte) {meaning : MarklinMeaning}
    (hb2 : marklinMeaning b2 = some meaning) :
    let a := getMarklinAddressAndSpeed l.address (getSpeedForTrain l)
    readMarklin [cmd, a.b0, marklinLight a.b1 l, b2] =
      some (l.address.toNat % 81, l.fn.getLsbD 0, meaning) := by
  have hb0 := marklinDigit_b0 (l.address.toNat % 3) (Nat.mod_lt _ (by decide))
  obtain ⟨h1, h2, h3, hlight⟩ := marklinDigit_b1 _ (Nat.mod_lt (l.address.toNat / 3) (by decide))
    _ (Nat.mod_lt (l.address.toNat / 3 / 3) (by decide))
    _ (Nat.mod_lt (l.address.toNat / 3 / 3 / 3) (by decide)) (l.fn.getLsbD 0)
  have haddress : l.address.toNat % 3 + 3 * (l.address.toNat / 3 % 3) +
      9 * (l.address.toNat / 3 / 3 % 3) + 27 * (l.address.toNat / 3 / 3 / 3 % 3) =
      l.address.toNat % 81 := by omega
  simp only [readMarklin, hb2, Option.map_some, getMarklinAddressAndSpeed, marklinLight, hb0, h1,
    h2, h3, haddress, hlight, Bool.decide_eq_true]

/-- Each packet for a locomotive of Marklin tells its address up to multiples of 81, its light, and
what it is for: the direction changes, or the speed step with the direction where the protocol has
one, or the speed step with the value of the function. -/
theorem marklin_packets_read (l : Loco) (hmarklin : l.isDcc = false) (prio : Bool) :
    readMarklin (sendDccLocoSpeedPacket l prio).2 = some (l.address.toNat % 81, l.fn.getLsbD 0,
      if l.dirChanged then .old 1
      else if l.driveType = marklinOld then .old (marklinStep (getSpeedForTrain l))
      else .speed (marklinStep (getSpeedForTrain l)) (isTrainMovingReverse l)) ∧
    (∀ position data, sendLocoFnPacket l position prio = some data →
      readMarklin data = some (l.address.toNat % 81, l.fn.getLsbD 0,
        .function (marklinStep (getSpeedForTrain l)) position (l.fn.getLsbD position))) ∧
    marklinStep (getSpeedForTrain l) ≠ 1 ∧
    (marklinStep (getSpeedForTrain l) = 0 ↔ getSpeedForTrain l = 0) := by
  obtain ⟨hstep, hone, hzero⟩ := marklinStep_spec (getSpeedForTrain l)
  refine ⟨?_, fun position data hdata => ?_, hone, hzero⟩
  · simp only [sendDccLocoSpeedPacket, hmarklin, Bool.false_eq_true, if_false]
    split
    · exact readMarklin_packet l _ _ (by decide)
    · split
      · exact readMarklin_packet l _ _ (marklinMeaning_old _ hstep)
      · exact readMarklin_packet l _ _ (marklinMeaning_speed _ hstep _)
  · simp only [sendLocoFnPacket, hmarklin, Bool.false_eq_true, if_false] at hdata
    split at hdata
    · cases hdata
    · split at hdata
      · cases hdata
      · next hposition =>
        cases hdata
        exact readMarklin_packet l _ _
          (marklinMeaning_function _ hstep _ (Nat.not_lt.mp hposition) _)

/-- A locomotive with the new protocol of Marklin that goes backwards at full speed with the light
and the second function on. -/
def sampleMarklinLoco : Loco :=
  { address := 72
    speed := 0xff
    fn := 0b101
    relativeSpeed := 16
    fncount := 3
    loopPosition := 1
    loopAtSpeed := true
    driveType := marklinNew
    dirChanged := false
    paused := false
    reversed := false
    isPushpull := false }

theorem sampleMarklinLoco_read :
    readMarklin (sendDccLocoSpeedPacket sampleMarklinLoco false).2 =
        some (72, true, .speed 9 true) ∧
      sendLocoFnPacket sampleMarklinLoco 2 false =
        some [0b00100110, 0, 0b00101011, 0b10000111] ∧
      readMarklin [0b00100110, 0, 0b00101011, 0b10000111] = some (72, true, .function 9 2 true) := by
  obtain ⟨hspeed, hfunction, -, -⟩ := marklin_packets_read sampleMarklinLoco rfl false
  refine ⟨hspeed.trans (by decide), by decide, ?_⟩
  exact (hfunction 2 _ (by decide)).trans (by decide)

/-! ### DCC -/

/-- A speed packet of DCC as a decoder reads it: the address, whether the direction is forward, the
speed bits, of which 1 is the emergency stop, and the bit behind the direction. -/
def readDccSpeed : List Byte → Option (Byte × Bool × Nat × Bool)
  | [_, address, b1] =>
    if b1 &&& 0b11000000 = 0b01000000 then
      some (address, b1.getLsbD 5, (b1 &&& 0b1111).toNat, b1.getLsbD 4)
    else none
  | _ => none

/-- What a function packet of DCC says about the function `f`. -/
def dccFunctionIn : List Byte → Nat → Option Bool
  | [_, _, b1], f =>
    if b1 >>> 5 = 0b100 then
      if f = 0 then some (b1.getLsbD 4) else if f ≤ 4 then some (b1.getLsbD (f - 1)) else none
    else if b1 >>> 4 = 0b1011 then
      if 5 ≤ f ∧ f ≤ 8 then some (b1.getLsbD (f - 5)) else none
    else if b1 >>> 4 = 0b1010 then
      if 9 ≤ f ∧ f ≤ 12 then some (b1.getLsbD (f - 9)) else none
    else none
  | [_, _, b1, b2], f =>
    if b1 = 0b11011110 ∧ 13 ≤ f ∧ f ≤ 20 then some (b2.getLsbD (f - 13)) else none
  | _, _ => none

/-- The byte of a speed packet of DCC. -/
def dccSpeedByte (forward : Bool) (bits : Nat) (c : Bool) : Byte :=
  0b01000000 ||| (if forward then 0b00100000 else 0) |||
    (BitVec.ofNat 8 bits ||| if c then 0b00010000 else 0)

theorem dccSpeedByte_bits : ∀ bits ≤ 15, ∀ forward c,
    dccSpeedByte forward bits c &&& 0b11000000 = 0b01000000 ∧
      (dccSpeedByte forward bits c).getLsbD 5 = forward ∧
      (dccSpeedByte forward bits c &&& 0b1111).toNat = bits ∧
      (dccSpeedByte forward bits c).getLsbD 4 = c := by
  decide

/-- The light replaces the bit behind the direction. -/
theorem dccSpeedByte_light : ∀ bits ≤ 15, ∀ forward c light : Bool,
    (if light then dccSpeedByte forward bits c ||| 0b00010000
      else dccSpeedByte forward bits c &&& ~~~0b00010000) = dccSpeedByte forward bits light := by
  decide

theorem dccSpeedByte_step : ∀ step ≤ 31, ∀ reverse : Bool,
    (0b01000000 ||| if reverse then (0 : Byte) else 0b00100000) ||| dccStepBits step =
      dccSpeedByte (!reverse) (step / 2) (step.testBit 0) := by
  decide

theorem dccSpeedByte_stop : ∀ reverse : Bool,
    (0b01000000 ||| if reverse then (0 : Byte) else 0b00100000) ||| 1 =
      dccSpeedByte (!reverse) 1 false := by
  decide

theorem readDccSpeed_packet (l : Loco) (cmd address : Byte) {bits : Nat} (hbits : bits ≤ 15)
    (forward c : Bool) :
    readDccSpeed (dccPacket cmd 2 address (dccLight (dccSpeedByte forward bits c) l) 0) =
      some (address, forward, bits, if l.driveType = dcc14 then l.fn.getLsbD 0 else c) := by
  have hlight : dccLight (dccSpeedByte forward bits c) l =
      dccSpeedByte forward bits (if l.driveType = dcc14 then l.fn.getLsbD 0 else c) := by
    unfold dccLight
    split
    · exact dccSpeedByte_light bits hbits forward c _
    · rfl
  rw [hlight]
  obtain ⟨hkind, hforward, hspeed, hc⟩ := dccSpeedByte_bits bits hbits forward
    (if l.driveType = dcc14 then l.fn.getLsbD 0 else c)
  simp only [dccPacket, List.take_succ_cons, List.take_zero, readDccSpeed, hkind, hforward, hspeed,
    hc, if_true]

theorem fnGroup_first (fn : BitVec 16) :
    let b1 : Byte := 0b10000000 ||| (if fn.getLsbD 0 then 0b00010000 else 0) |||
      ((fn &&& 0b00011110) >>> 1).setWidth 8
    b1 >>> 5 = 0b100 ∧ b1.getLsbD 4 = fn.getLsbD 0 ∧
      ∀ i < 4, b1.getLsbD i = fn.getLsbD (i + 1) := by
  refine ⟨?_, ?_, ?_⟩
  · ext i hi
    interval_cases i <;> cases fn.getLsbD 0 <;> simp
  · cases fn.getLsbD 0 <;> simp
  · intro i hi
    interval_cases i <;> cases fn.getLsbD 0 <;> simp

/-- The groups of four functions from `n` on. -/
theorem fnGroup_four (fn : BitVec 16) (n : Nat) (base : Byte) (hbase : base &&& 0x0f = 0) :
    let b1 : Byte := base ||| ((fn >>> n) &&& 0x0f).setWidth 8
    b1 >>> 4 = base >>> 4 ∧ ∀ i < 4, b1.getLsbD i = fn.getLsbD (n + i) := by
  refine ⟨?_, ?_⟩
  · ext i hi
    interval_cases i <;> simp
  · intro i hi
    have hzero := congrArg (BitVec.getLsbD · i) hbase
    interval_cases i <;> simp at hzero ⊢ <;> simp [hzero]

theorem fnGroup_last (fn : BitVec 16) : ∀ i < 8,
    (((fn >>> 13) &&& 0xff).setWidth 8 : Byte).getLsbD i = fn.getLsbD (13 + i) := by
  intro i hi
  interval_cases i <;> simp

/-- The functions that go into one packet with the position. -/
def dccFnGroup (position : Nat) : Nat × Nat :=
  if position ≤ 4 then (0, 4) else if position ≤ 8 then (5, 8) else if position ≤ 12 then (9, 12)
  else (13, 20)

theorem dccFunctionIn_first {fn : BitVec 16} {b1 : Byte} (hkind : b1 >>> 5 = 0b100)
    (hzero : b1.getLsbD 4 = fn.getLsbD 0) (hbits : ∀ i < 4, b1.getLsbD i = fn.getLsbD (i + 1))
    (cmd address : Byte) (f : Nat) :
    dccFunctionIn [cmd, address, b1] f =
      if 0 ≤ f ∧ f ≤ 4 then some (fn.getLsbD f) else none := by
  rw [dccFunctionIn, if_pos hkind]
  by_cases hf : f = 0
  · rw [if_pos hf, hf, hzero]
    rfl
  by_cases hle : f ≤ 4
  · rw [if_neg hf, if_pos hle, if_pos ⟨Nat.zero_le f, hle⟩, hbits _ (by omega),
      Nat.sub_add_cancel (by omega)]
  · rw [if_neg hf, if_neg hle, if_neg fun h => hle h.2]

/-- The groups of four. -/
theorem dccFunctionIn_four {fn : BitVec 16} {b1 : Byte} {n : Nat}
    (hkind : b1 >>> 4 = 0b1011 ∧ n = 5 ∨ b1 >>> 4 = 0b1010 ∧ n = 9)
    (hbits : ∀ i < 4, b1.getLsbD i = fn.getLsbD (n + i)) (cmd address : Byte) (f : Nat) :
    dccFunctionIn [cmd, address, b1] f =
      if n ≤ f ∧ f ≤ n + 3 then some (fn.getLsbD f) else none := by
  have hfirst : b1 >>> 5 ≠ 0b100 := by
    rw [BitVec.shiftRight_add b1 4 1]
    rcases hkind with ⟨hkind, -⟩ | ⟨hkind, -⟩ <;> rw [hkind] <;> decide
  have hgroup : dccFunctionIn [cmd, address, b1] f =
      if n ≤ f ∧ f ≤ n + 3 then some (b1.getLsbD (f - n)) else none := by
    rw [dccFunctionIn, if_neg hfirst]
    rcases hkind with ⟨hkind, rfl⟩ | ⟨hkind, rfl⟩
    · rw [if_pos hkind]
    · rw [hkind, if_neg (by decide), if_pos rfl]
  rw [hgroup]
  split
  · next hf => rw [hbits _ (by omega), Nat.add_sub_cancel' hf.1]
  · rfl

theorem dccFnBytes_length (fn : BitVec 16) (position : Nat) : 0 < (dccFnBytes fn position).1 := by
  unfold dccFnBytes
  split
  · exact Nat.two_pos
  split
  · exact Nat.two_pos
  split
  · exact Nat.two_pos
  · exact Nat.succ_pos 2

theorem dccPacket_second {cmd d1 d2 d3 : Byte} {len : Nat} (hlen : 0 < len) :
    (dccPacket cmd len d1 d2 d3)[1]? = some d1 := by
  rw [dccPacket, List.getElem?_take_of_lt (by omega)]
  rfl

/-- A function packet says of each function in the group whether it is on. -/
theorem dccFunctionIn_packet (fn : BitVec 16) (position : Nat) (cmd address : Byte) (f : Nat) :
    dccFunctionIn (dccPacket cmd (dccFnBytes fn position).1 address (dccFnBytes fn position).2.1
        (dccFnBytes fn position).2.2) f =
      if (dccFnGroup position).1 ≤ f ∧ f ≤ (dccFnGroup position).2 then some (fn.getLsbD f)
      else none := by
  unfold dccFnBytes dccFnGroup
  split
  · obtain ⟨hkind, hzero, hbits⟩ := fnGroup_first fn
    exact dccFunctionIn_first hkind hzero hbits cmd address f
  split
  · obtain ⟨hkind, hbits⟩ := fnGroup_four fn 5 0b10110000 (by decide)
    exact dccFunctionIn_four (.inl ⟨hkind, rfl⟩) hbits cmd address f
  split
  · obtain ⟨hkind, hbits⟩ := fnGroup_four fn 9 0b10100000 (by decide)
    exact dccFunctionIn_four (.inr ⟨hkind, rfl⟩) hbits cmd address f
  · simp only [dccPacket, List.take_succ_cons, List.take_zero, dccFunctionIn, true_and]
    split
    · next hf => rw [fnGroup_last fn _ (by omega), Nat.add_sub_cancel' hf.1]
    · rfl

/-- A locomotive of DCC that has to turn round, with the fourth function on. -/
def sampleDccLoco : Loco :=
  { address := 50
    speed := 0x90
    fn := 0b10000
    relativeSpeed := 16
    fncount := 20
    loopPosition := 1
    loopAtSpeed := true
    driveType := 5
    dirChanged := true
    paused := false
    reversed := false
    isPushpull := true }

end OpenmrnCue.DccMaster
