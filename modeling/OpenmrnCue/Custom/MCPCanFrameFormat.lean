import OpenmrnCue.Library.Buffer
import Mathlib.Data.UInt

/-! `MCPCanFrameFormat.cxx`: CAN frames in the layout of the registers of the MCP2515, which the
host protocol carries.  The accessors of `can_frame.h` are not part of this repository, so they are
parameters; `Lawful` states what they do. -/

namespace OpenmrnCue.Custom

open Buffer

/-- The accessors of the identifier word of a frame, with its flags. -/
structure FrameAccessors (W : Type) where
  isEff : W → Bool
  getId : W → UInt32
  getIdEff : W → UInt32
  setEff : W → W
  clrEff : W → W
  clrRtr : W → W
  clrErr : W → W
  setId : W → UInt32 → W
  setIdEff : W → UInt32 → W

/-- The accessors store and return the flag and the identifier that they are given. -/
structure FrameAccessors.Lawful {W : Type} (acc : FrameAccessors W) : Prop where
  isEff_setEff : ∀ w, acc.isEff (acc.setEff w) = true
  isEff_clrEff : ∀ w, acc.isEff (acc.clrEff w) = false
  isEff_setId : ∀ w id, acc.isEff (acc.setId w id) = acc.isEff w
  isEff_setIdEff : ∀ w id, acc.isEff (acc.setIdEff w id) = acc.isEff w
  getId_setId : ∀ w id, id.toNat < 2 ^ 11 → acc.getId (acc.setId w id) = id
  getIdEff_setIdEff : ∀ w id, id.toNat < 2 ^ 29 → acc.getIdEff (acc.setIdEff w id) = id

/-- The identifier of a frame, which has 29 bits when the frame is extended and 11 otherwise. -/
def FrameAccessors.identifier {W : Type} (acc : FrameAccessors W) (word : W) : UInt32 :=
  if acc.isEff word then acc.getIdEff word else acc.getId word

def FrameAccessors.identifierBits {W : Type} (acc : FrameAccessors W) (word : W) : Nat :=
  if acc.isEff word then 29 else 11

/-- `struct can_frame`. -/
structure CanFrame (W : Type) where
  canId : W
  canDlc : UInt8
  data : Vector UInt8 8

/-! The bytes of the packet, from the first byte of the identifier on. -/

def sidh : Nat := 0
def sidl : Nat := 1
def eidh : Nat := 2
def eidl : Nat := 3
def canLen : Nat := 4
def canD0 : Nat := 5

section

variable {W : Type} (acc : FrameAccessors W) {n : Nat}

/-- The first part of `mcp_to_frame`: the identifier word. -/
def mcpToWord (buffer : Vector UInt8 n) (start : Nat) (word : W) : Except Fault W := do
  let extended := (← read buffer (start + 1)) &&& 0x08 != 0
  let word := acc.clrErr (acc.clrRtr word)
  if extended then do
    let id := (← read buffer start).toUInt32
    let id := id <<< 3
    let id := id ||| ((← read buffer (start + 1)) >>> 5).toUInt32
    let id := id <<< 2
    let id := id ||| ((← read buffer (start + 1)) &&& 3).toUInt32
    let id := id <<< 8
    let id := id ||| (← read buffer (start + 2)).toUInt32
    let id := id <<< 8
    let id := id ||| (← read buffer (start + 3)).toUInt32
    pure (acc.setIdEff (acc.setEff word) id)
  else do
    let id := (← read buffer start).toUInt32
    let id := id <<< 3
    let id := id ||| ((← read buffer (start + 1)) >>> 5).toUInt32
    pure (acc.setId (acc.clrEff word) id)

/-- `mcp_to_frame`, for the packet at `start` in a buffer. -/
def mcpToFrame (buffer : Vector UInt8 n) (start : Nat) (frame : CanFrame W) :
    Except Fault (CanFrame W) := do
  let word ← mcpToWord acc buffer start frame.canId
  let len ← read buffer (start + 4)
  let data ← copy frame.data 0 buffer (start + 5) len.toNat
  pure { canId := word, canDlc := len, data := data }

/-- The last part of `frame_to_mcp`: the bytes of the identifier. -/
def wordToMcp (word : W) (pkt : Vector UInt8 n) : Except Fault (Vector UInt8 n) :=
  if acc.isEff word then do
    let id := acc.getIdEff word
    let pkt ← write pkt eidl (id &&& 0xff).toUInt8
    let id := id >>> 8
    let pkt ← write pkt eidh (id &&& 0xff).toUInt8
    let id := id >>> 8
    let pkt ← write pkt sidl 0x08
    let pkt ← write pkt sidl ((← read pkt sidl).toUInt32 ||| (id &&& 3)).toUInt8
    let id := id >>> 2
    let pkt ← write pkt sidl ((← read pkt sidl).toUInt32 ||| ((id &&& 7) <<< 5)).toUInt8
    let id := id >>> 3
    write pkt sidh (id &&& 0xff).toUInt8
  else do
    let id := acc.getId word
    let pkt ← write pkt sidh (id >>> 3).toUInt8
    write pkt sidl (id <<< 5).toUInt8

/-- `frame_to_mcp`. -/
def frameToMcp (frame : CanFrame W) (pkt : Vector UInt8 n) : Except Fault (Vector UInt8 n) := do
  let pkt ← write pkt canLen frame.canDlc
  let pkt ← copy pkt canD0 frame.data 0 (← read pkt canLen).toNat
  wordToMcp acc frame.canId pkt

end

/-! ### The identifier and its bytes -/

theorem toNat_shiftLeft_or {a b s : UInt32} (hs : s.toNat < 32)
    (ha : a.toNat * 2 ^ s.toNat < 2 ^ 32) (hb : b.toNat < 2 ^ s.toNat) :
    (a <<< s ||| b).toNat = a.toNat * 2 ^ s.toNat + b.toNat := by
  rw [UInt32.toNat_or, UInt32.toNat_shiftLeft, Nat.mod_eq_of_lt hs, Nat.shiftLeft_eq,
    Nat.mod_eq_of_lt ha, ← Nat.shiftLeft_eq, ← Nat.shiftLeft_add_eq_or_of_lt hb]

theorem toNat_shiftRight_five (b : UInt8) : (b >>> 5).toNat = b.toNat / 32 := by
  rw [UInt8.toNat_shiftRight, Nat.shiftRight_eq_div_pow]
  rfl

theorem toNat_and_three (b : UInt8) : (b &&& 3).toNat = b.toNat % 4 := by
  rw [UInt8.toNat_and]
  exact Nat.and_two_pow_sub_one_eq_mod _ 2

/-- The flag, and the two parts of the identifier around it, are apart in their byte. -/
theorem flag_byte : ∀ x < 4, ∀ y < 8,
    (8 ||| x) % 256 = 8 + x ∧ ((8 + x) ||| y <<< 5 % 2 ^ 32) % 256 = 8 + x + 32 * y ∧
      (8 + x + 32 * y) &&& 8 = 8 := by
  decide

/-- The byte with the flag, as `frame_to_mcp` builds it from the identifier above its two low
bytes. -/
def flagByte (id : UInt32) : UInt8 :=
  ((0x08 ||| (id &&& 3)).toUInt8.toUInt32 ||| ((id >>> 2 &&& 7) <<< 5)).toUInt8

theorem toNat_flagByte (id : UInt32) :
    (flagByte id).toNat = 8 + id.toNat % 4 + 32 * (id.toNat / 4 % 8) := by
  have h := flag_byte (id.toNat % 4) (by omega) (id.toNat / 4 % 8) (by omega)
  have h3 : id.toNat &&& 3 = id.toNat % 4 := Nat.and_two_pow_sub_one_eq_mod _ 2
  have h7 : (id.toNat >>> 2) &&& 7 = id.toNat / 4 % 8 := by
    rw [Nat.shiftRight_eq_div_pow]
    exact Nat.and_two_pow_sub_one_eq_mod _ 3
  simp only [flagByte, UInt32.toNat_toUInt8, UInt32.toNat_or, UInt8.toNat_toUInt32,
    UInt32.toNat_and, UInt32.toNat_shiftLeft, UInt32.toNat_shiftRight, UInt32.toNat_ofNat]
  simp only [Nat.reducePow, Nat.reduceMod, h3, h7]
  rw [h.1]
  exact h.2.1

theorem flagByte_and_flag (id : UInt32) : flagByte id &&& 0x08 = 0x08 := by
  have h := flag_byte (id.toNat % 4) (by omega) (id.toNat / 4 % 8) (by omega)
  apply UInt8.toNat_inj.mp
  rw [UInt8.toNat_and, toNat_flagByte]
  exact h.2.2

/-- The standard identifier, as `mcp_to_frame` reads it from its bytes. -/
def standardId (sidh sidl : UInt8) : UInt32 := sidh.toUInt32 <<< 3 ||| (sidl >>> 5).toUInt32

/-- The part of an extended identifier above its two low bytes. -/
def upperId (sidh sidl : UInt8) : UInt32 := standardId sidh sidl <<< 2 ||| (sidl &&& 3).toUInt32

/-- The extended identifier, as `mcp_to_frame` reads it from its bytes. -/
def extendedId (sidh sidl eidh eidl : UInt8) : UInt32 :=
  (upperId sidh sidl <<< 8 ||| eidh.toUInt32) <<< 8 ||| eidl.toUInt32

theorem toNat_standardId (sidh sidl : UInt8) :
    (standardId sidh sidl).toNat = sidh.toNat * 8 + sidl.toNat / 32 := by
  have hsidh := sidh.toNat_lt
  have hsidl := sidl.toNat_lt
  have hhigh : (sidl >>> 5).toUInt32.toNat = sidl.toNat / 32 := by
    rw [UInt8.toNat_toUInt32, toNat_shiftRight_five]
  rw [standardId, toNat_shiftLeft_or (s := 3) (by decide), hhigh]
  · rfl
  · show sidh.toNat * 8 < 2 ^ 32
    omega
  · show (sidl >>> 5).toUInt32.toNat < 8
    omega

theorem toNat_upperId (sidh sidl : UInt8) :
    (upperId sidh sidl).toNat = (sidh.toNat * 8 + sidl.toNat / 32) * 4 + sidl.toNat % 4 := by
  have hsidh := sidh.toNat_lt
  have hsidl := sidl.toNat_lt
  have hstandard := toNat_standardId sidh sidl
  have hlow : (sidl &&& 3).toUInt32.toNat = sidl.toNat % 4 := by
    rw [UInt8.toNat_toUInt32, toNat_and_three]
  rw [upperId, toNat_shiftLeft_or (s := 2) (by decide), hlow, hstandard]
  · rfl
  · show (standardId sidh sidl).toNat * 4 < 2 ^ 32
    omega
  · show (sidl &&& 3).toUInt32.toNat < 4
    omega

theorem toNat_shiftLeft_or_byte {a : UInt32} (b : UInt8) (ha : a.toNat < 2 ^ 24) :
    (a <<< 8 ||| b.toUInt32).toNat = a.toNat * 256 + b.toNat := by
  have hb : b.toUInt32.toNat < 2 ^ 8 := b.toNat_lt
  rw [toNat_shiftLeft_or (s := 8) (by decide) _ hb, UInt8.toNat_toUInt32]
  · rfl
  · show a.toNat * 256 < 2 ^ 32
    omega

theorem toNat_extendedId (sidh sidl eidh eidl : UInt8) :
    (extendedId sidh sidl eidh eidl).toNat =
      (((sidh.toNat * 8 + sidl.toNat / 32) * 4 + sidl.toNat % 4) * 256 + eidh.toNat) * 256 +
        eidl.toNat := by
  have hsidh := sidh.toNat_lt
  have hsidl := sidl.toNat_lt
  have heidh := eidh.toNat_lt
  have hupper := toNat_upperId sidh sidl
  have hmiddle : (upperId sidh sidl <<< 8 ||| eidh.toUInt32).toNat =
      (upperId sidh sidl).toNat * 256 + eidh.toNat := toNat_shiftLeft_or_byte eidh (by omega)
  rw [extendedId, toNat_shiftLeft_or_byte eidl (by omega), hmiddle, hupper]

theorem toNat_low_byte (id : UInt32) : (id &&& 0xff).toUInt8.toNat = id.toNat % 256 := by
  rw [UInt32.toNat_toUInt8, UInt32.toNat_and]
  have h : id.toNat &&& (0xff : UInt32).toNat = id.toNat % 256 :=
    Nat.and_two_pow_sub_one_eq_mod _ 8
  rw [h, Nat.mod_mod]

theorem toNat_shiftRight {id s : UInt32} (hs : s.toNat < 32) :
    (id >>> s).toNat = id.toNat / 2 ^ s.toNat := by
  rw [UInt32.toNat_shiftRight, Nat.mod_eq_of_lt hs, Nat.shiftRight_eq_div_pow]

/-- The identifier comes back from the bytes that `frame_to_mcp` writes. -/
theorem extendedId_bytes {id : UInt32} (hid : id.toNat < 2 ^ 29) :
    extendedId (id >>> 8 >>> 8 >>> 2 >>> 3 &&& 0xff).toUInt8 (flagByte (id >>> 8 >>> 8))
      (id >>> 8 &&& 0xff).toUInt8 (id &&& 0xff).toUInt8 = id := by
  apply UInt32.toNat_inj.mp
  have h8 : (id >>> 8).toNat = id.toNat / 256 := toNat_shiftRight (by decide)
  have h16 : (id >>> 8 >>> 8).toNat = id.toNat / 256 / 256 := by
    rw [toNat_shiftRight (by decide), h8]
    rfl
  have h21 : (id >>> 8 >>> 8 >>> 2 >>> 3).toNat = id.toNat / 256 / 256 / 4 / 8 := by
    rw [toNat_shiftRight (by decide), toNat_shiftRight (by decide), h16]
    rfl
  rw [toNat_extendedId, toNat_low_byte, toNat_low_byte, toNat_low_byte, toNat_flagByte, h8, h16,
    h21]
  omega

theorem standardId_bytes {id : UInt32} (hid : id.toNat < 2 ^ 11) :
    standardId (id >>> 3).toUInt8 (id <<< 5).toUInt8 = id := by
  apply UInt32.toNat_inj.mp
  have hhigh : (id >>> 3).toUInt8.toNat = id.toNat / 8 % 256 := by
    rw [UInt32.toNat_toUInt8, toNat_shiftRight (by decide)]
    rfl
  have hlow : (id <<< 5).toUInt8.toNat = id.toNat * 32 % 2 ^ 32 % 256 := by
    rw [UInt32.toNat_toUInt8, UInt32.toNat_shiftLeft, Nat.shiftLeft_eq]
    rfl
  rw [toNat_standardId, hhigh, hlow]
  omega

/-- The flag is clear in the standard layout. -/
theorem standard_and_flag {id : UInt32} : (id <<< 5).toUInt8 &&& 0x08 = 0 := by
  have hclear : ∀ x < 8, (32 * x) &&& 8 = 0 := by decide
  have hlow : (id <<< 5).toUInt8.toNat = id.toNat * 32 % 2 ^ 32 % 256 := by
    rw [UInt32.toNat_toUInt8, UInt32.toNat_shiftLeft, Nat.shiftLeft_eq]
    rfl
  apply UInt8.toNat_inj.mp
  rw [UInt8.toNat_and, hlow]
  have hmod : id.toNat * 32 % 2 ^ 32 % 256 = 32 * (id.toNat % 8) := by omega
  rw [hmod]
  exact hclear _ (by omega)

/-! ### An instance of the accessors -/

/-- The identifier word where the flags are bit fields beside the identifier. -/
structure BitFieldWord where
  canId : UInt32
  canEff : Bool
  canRtr : Bool
  canErr : Bool
deriving DecidableEq, Repr

def bitFieldAccessors : FrameAccessors BitFieldWord where
  isEff w := w.canEff
  getId w := w.canId &&& 0x7ff
  getIdEff w := w.canId &&& 0x1fffffff
  setEff w := { w with canEff := true }
  clrEff w := { w with canEff := false }
  clrRtr w := { w with canRtr := false }
  clrErr w := { w with canErr := false }
  setId w id := { w with canId := id &&& 0x7ff }
  setIdEff w id := { w with canId := id &&& 0x1fffffff }

theorem bitFieldAccessors_lawful : bitFieldAccessors.Lawful where
  isEff_setEff _ := rfl
  isEff_clrEff _ := rfl
  isEff_setId _ _ := rfl
  isEff_setIdEff _ _ := rfl
  getId_setId _ id hid := by
    have hmask : id.toNat &&& 0x7ff = id.toNat % 2 ^ 11 := Nat.and_two_pow_sub_one_eq_mod _ 11
    have h : id &&& 0x7ff = id := by
      apply UInt32.toNat_inj.mp
      rw [UInt32.toNat_and]
      exact hmask.trans (Nat.mod_eq_of_lt hid)
    simp only [bitFieldAccessors, h]
  getIdEff_setIdEff _ id hid := by
    have hmask : id.toNat &&& 0x1fffffff = id.toNat % 2 ^ 29 :=
      Nat.and_two_pow_sub_one_eq_mod _ 29
    have h : id &&& 0x1fffffff = id := by
      apply UInt32.toNat_inj.mp
      rw [UInt32.toNat_and]
      exact hmask.trans (Nat.mod_eq_of_lt hid)
    simp only [bitFieldAccessors, h]

/-! ### The packet as a whole -/

section

variable {W : Type} {acc : FrameAccessors W} {n : Nat}

/-- The identifier word that `mcp_to_frame` makes from the bytes of the identifier. -/
def frameWord (acc : FrameAccessors W) (word : W) (sidh sidl eidh eidl : UInt8) : W :=
  if sidl &&& 0x08 != 0 then
    acc.setIdEff (acc.setEff (acc.clrErr (acc.clrRtr word))) (extendedId sidh sidl eidh eidl)
  else acc.setId (acc.clrEff (acc.clrErr (acc.clrRtr word))) (standardId sidh sidl)

theorem mcpToFrame_of_lt {buffer : Vector UInt8 n} {start : Nat} (h : start + 4 < n)
    (frame : CanFrame W) :
    mcpToFrame acc buffer start frame = (do
      let data ← copy frame.data 0 buffer (start + 5) buffer[start + 4].toNat
      pure
        { canId := frameWord acc frame.canId buffer[start] buffer[start + 1] buffer[start + 2]
            buffer[start + 3]
          canDlc := buffer[start + 4]
          data := data }) := by
  have h0 : start < n := by omega
  have h1 : start + 1 < n := by omega
  have h2 : start + 2 < n := by omega
  have h3 : start + 3 < n := by omega
  by_cases heff : buffer[start + 1] &&& 0x08 != 0
  · simp only [mcpToFrame, mcpToWord, frameWord, read_of_lt h0, read_of_lt h1, read_of_lt h2,
      read_of_lt h3, read_of_lt h, Except.ok_bind, if_pos heff]
    rfl
  · simp only [mcpToFrame, mcpToWord, frameWord, read_of_lt h0, read_of_lt h1, read_of_lt h,
      Except.ok_bind, if_neg heff]
    rfl

theorem mcpToFrame_of_ok {buffer : Vector UInt8 n} {start : Nat} {frame frame' : CanFrame W}
    (h : mcpToFrame acc buffer start frame = .ok frame') : start + 4 < n := by
  obtain ⟨_, -, h⟩ := Except.bind_eq_ok.mp h
  obtain ⟨_, hlen, -⟩ := Except.bind_eq_ok.mp h
  exact (read_eq_ok.mp hlen).1

/-- `mcp_to_frame` stays inside of the packet and of the frame just when the packet has its length
byte, and as many bytes after it as that byte says, at most eight. -/
theorem exists_mcpToFrame {buffer : Vector UInt8 n} {start : Nat} {frame : CanFrame W} :
    (∃ frame', mcpToFrame acc buffer start frame = .ok frame') ↔
      ∃ len, buffer[start + 4]? = some len ∧ start + 5 + len.toNat ≤ n ∧ len.toNat ≤ 8 := by
  constructor
  · rintro ⟨frame', h⟩
    have hlt := mcpToFrame_of_ok h
    rw [mcpToFrame_of_lt hlt] at h
    obtain ⟨data, hdata, -⟩ := Except.bind_eq_ok.mp h
    have hcopy := exists_copy.mp ⟨data, hdata⟩
    exact ⟨buffer[start + 4], Vector.getElem?_eq_getElem hlt, by omega, by omega⟩
  · rintro ⟨len, hlen, hfit, h8⟩
    obtain ⟨hlt, rfl⟩ := Vector.getElem?_eq_some_iff.mp hlen
    have hcopy : ∃ data, copy frame.data 0 buffer (start + 5) buffer[start + 4].toNat = .ok data :=
      exists_copy.mpr (by omega)
    obtain ⟨data, hdata⟩ := hcopy
    rw [mcpToFrame_of_lt hlt, hdata]
    exact ⟨_, rfl⟩

/-- The bytes of the identifier that `frame_to_mcp` leaves for a frame in the packet. -/
def IdentifierBytes (acc : FrameAccessors W) (word : W) (pkt : Vector UInt8 13) : Prop :=
  if acc.isEff word then
    let id := acc.getIdEff word
    pkt[sidh] = (id >>> 8 >>> 8 >>> 2 >>> 3 &&& 0xff).toUInt8 ∧
      pkt[sidl] = flagByte (id >>> 8 >>> 8) ∧ pkt[eidh] = (id >>> 8 &&& 0xff).toUInt8 ∧
      pkt[eidl] = (id &&& 0xff).toUInt8
  else
    let id := acc.getId word
    pkt[sidh] = (id >>> 3).toUInt8 ∧ pkt[sidl] = (id <<< 5).toUInt8

/-- The identifier goes to the first four bytes. -/
theorem wordToMcp_eq (word : W) (pkt : Vector UInt8 13) :
    ∃ pkt', wordToMcp acc word pkt = .ok pkt' ∧ IdentifierBytes acc word pkt' ∧
      ∀ i, (h : i < 13) → 4 ≤ i → pkt'[i] = pkt[i] := by
  have h0 : sidh < 13 := by decide
  have h1 : sidl < 13 := by decide
  have h2 : eidh < 13 := by decide
  have h3 : eidl < 13 := by decide
  by_cases heff : acc.isEff word = true
  · simp only [wordToMcp, IdentifierBytes, if_pos heff, write_of_lt h0, write_of_lt h1,
      write_of_lt h2, write_of_lt h3, read_of_lt h1, Vector.getElem_set_self, Except.ok_bind,
      Except.ok.injEq, exists_eq_left']
    refine ⟨by simp [sidh, sidl, eidh, eidl, flagByte], fun i h hi => ?_⟩
    simp (disch := simp only [sidh, sidl, eidh, eidl]; omega) only [Vector.getElem_set_ne]
  · simp only [wordToMcp, IdentifierBytes, if_neg heff, write_of_lt h0, write_of_lt h1,
      Except.ok_bind, Except.ok.injEq, exists_eq_left']
    refine ⟨by simp [sidh, sidl], fun i h hi => ?_⟩
    simp (disch := simp only [sidh, sidl]; omega) only [Vector.getElem_set_ne]

/-- `frame_to_mcp` writes the identifier, the length and the data, and nothing of what the packet
held before is read. -/
theorem frameToMcp_eq {frame : CanFrame W} (hdlc : frame.canDlc.toNat ≤ 8)
    (mcp : Vector UInt8 13) :
    ∃ pkt, frameToMcp acc frame mcp = .ok pkt ∧ IdentifierBytes acc frame.canId pkt ∧
      pkt[canLen] = frame.canDlc ∧
      ∀ i, (h : i < 8) → i < frame.canDlc.toNat → pkt[canD0 + i]? = some frame.data[i] := by
  have hset : write mcp canLen frame.canDlc = .ok (mcp.set canLen frame.canDlc) :=
    write_of_lt (by decide) _
  have hread : read (mcp.set canLen frame.canDlc) canLen = .ok frame.canDlc := by
    rw [read_of_lt (by decide), Vector.getElem_set_self]
  have hcopy : ∃ pkt, copy (mcp.set canLen frame.canDlc) canD0 frame.data 0
      frame.canDlc.toNat = .ok pkt := exists_copy.mpr (by simp only [canD0]; omega)
  obtain ⟨pkt, hcopy⟩ := hcopy
  obtain ⟨pkt', hword, hbytes, hrest⟩ := @wordToMcp_eq W acc frame.canId pkt
  refine ⟨pkt', ?_, hbytes, ?_, fun i h hi => ?_⟩
  · simp only [frameToMcp, hset, hread, hcopy, Except.ok_bind, hword]
  · rw [hrest canLen (by decide) (by decide),
      copy_getElem_outside hcopy (by decide) (.inl (by decide)), Vector.getElem_set_self]
  · have hlt : canD0 + i < 13 := by simp only [canD0]; omega
    have hinside := copy_getElem_inside hcopy hlt hi
    rw [Nat.zero_add, Vector.getElem?_eq_getElem h] at hinside
    rw [Vector.getElem?_eq_getElem hlt, hrest _ hlt (by simp only [canD0]; omega), hinside]

/-- The word that is made from the bytes of an identifier has that identifier again. -/
theorem IdentifierBytes.frameWord (hacc : acc.Lawful) {word : W} {pkt : Vector UInt8 13}
    (h : IdentifierBytes acc word pkt)
    (hid : (acc.identifier word).toNat < 2 ^ acc.identifierBits word) (old : W) :
    let word' := frameWord acc old pkt[sidh] pkt[sidl] pkt[eidh] pkt[eidl]
    acc.isEff word' = acc.isEff word ∧ acc.identifier word' = acc.identifier word := by
  intro word'
  by_cases heff : acc.isEff word = true
  · simp only [FrameAccessors.identifier, FrameAccessors.identifierBits, if_pos heff] at hid
    rw [IdentifierBytes, if_pos heff] at h
    obtain ⟨hsidh, hsidl, heidh, heidl⟩ := h
    have hword : word' = acc.setIdEff (acc.setEff (acc.clrErr (acc.clrRtr old)))
        (acc.getIdEff word) := by
      show Custom.frameWord acc old pkt[sidh] pkt[sidl] pkt[eidh] pkt[eidl] = _
      rw [Custom.frameWord, hsidh, hsidl, heidh, heidl, flagByte_and_flag, if_pos (by decide),
        extendedId_bytes hid]
    have heff' : acc.isEff word' = true := by
      rw [hword, hacc.isEff_setIdEff, hacc.isEff_setEff]
    refine ⟨heff'.trans heff.symm, ?_⟩
    rw [FrameAccessors.identifier, FrameAccessors.identifier, if_pos heff', if_pos heff, hword,
      hacc.getIdEff_setIdEff _ _ hid]
  · simp only [FrameAccessors.identifier, FrameAccessors.identifierBits, if_neg heff] at hid
    rw [IdentifierBytes, if_neg heff] at h
    obtain ⟨hsidh, hsidl⟩ := h
    have hword : word' = acc.setId (acc.clrEff (acc.clrErr (acc.clrRtr old)))
        (acc.getId word) := by
      show Custom.frameWord acc old pkt[sidh] pkt[sidl] pkt[eidh] pkt[eidl] = _
      rw [Custom.frameWord, hsidh, hsidl, standard_and_flag, if_neg (by decide),
        standardId_bytes hid]
    have heff' : acc.isEff word' = false := by
      rw [hword, hacc.isEff_setId, hacc.isEff_clrEff]
    refine ⟨heff'.trans (Bool.eq_false_iff.mpr heff).symm, ?_⟩
    rw [FrameAccessors.identifier, FrameAccessors.identifier,
      if_neg (Bool.eq_false_iff.mp heff'), if_neg heff, hword, hacc.getId_setId _ _ hid]

/-- A frame survives the packet, whatever the packet and the frame that it is read into held
before. -/
theorem frame_survives_packet (hacc : acc.Lawful) (frame into : CanFrame W)
    (hid : (acc.identifier frame.canId).toNat < 2 ^ acc.identifierBits frame.canId)
    (hdlc : frame.canDlc.toNat ≤ 8) (mcp : Vector UInt8 13) :
    ∃ pkt frame', frameToMcp acc frame mcp = .ok pkt ∧ mcpToFrame acc pkt 0 into = .ok frame' ∧
      acc.isEff frame'.canId = acc.isEff frame.canId ∧
      acc.identifier frame'.canId = acc.identifier frame.canId ∧
      frame'.canDlc = frame.canDlc ∧
      ∀ i, (h : i < 8) → i < frame.canDlc.toNat → frame'.data[i] = frame.data[i] := by
  obtain ⟨pkt, hpkt, hbytes, hlen, hdata⟩ := @frameToMcp_eq W acc frame hdlc mcp
  have hlen' : pkt[4] = frame.canDlc := hlen
  have hcopy : ∃ data, copy into.data 0 pkt 5 frame.canDlc.toNat = .ok data :=
    exists_copy.mpr (by omega)
  obtain ⟨data, hcopy⟩ := hcopy
  obtain ⟨heff, hident⟩ := hbytes.frameWord hacc hid into.canId
  have hframe : mcpToFrame acc pkt 0 into = .ok
      { canId := frameWord acc into.canId pkt[sidh] pkt[sidl] pkt[eidh] pkt[eidl]
        canDlc := frame.canDlc
        data := data } := by
    rw [mcpToFrame_of_lt (by decide)]
    show (do
      let data ← copy into.data 0 pkt 5 pkt[4].toNat
      _) = _
    rw [hlen', hcopy]
    rfl
  refine ⟨pkt, _, hpkt, hframe, heff, hident, rfl, fun i h hi => ?_⟩
  have hinside := copy_getElem_inside hcopy (by omega : 0 + i < 8) hi
  simp only [Nat.zero_add] at hinside
  exact Option.some.inj (hinside.symm.trans (hdata i h hi))

end

/-- An extended frame with two bytes. -/
def sampleFrame : CanFrame BitFieldWord where
  canId := { canId := 0x1955c301, canEff := true, canRtr := false, canErr := false }
  canDlc := 2
  data := #v[0xa5, 0x5a, 0, 0, 0, 0, 0, 0]

/-- A standard frame with old data, to be overwritten. -/
def staleFrame : CanFrame BitFieldWord where
  canId := { canId := 0x7ff, canEff := false, canRtr := true, canErr := false }
  canDlc := 8
  data := #v[1, 2, 3, 4, 5, 6, 7, 8]

theorem sampleFrame_survives : ∃ pkt frame',
    frameToMcp bitFieldAccessors sampleFrame (Vector.replicate 13 0xff) = .ok pkt ∧
      mcpToFrame bitFieldAccessors pkt 0 staleFrame = .ok frame' ∧
      bitFieldAccessors.isEff frame'.canId = true ∧
      bitFieldAccessors.identifier frame'.canId = 0x1955c301 ∧ frame'.canDlc = 2 ∧
      ∀ i, (h : i < 8) → i < 2 → frame'.data[i] = sampleFrame.data[i] :=
  frame_survives_packet bitFieldAccessors_lawful sampleFrame staleFrame (by decide) (by decide) _

end OpenmrnCue.Custom
