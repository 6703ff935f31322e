import OpenmrnCue.CommandStation.ProgrammingTrackFrontend
import Mathlib.Algebra.Order.Ring.Int

/-! `ProgrammingTrackCVSpace`: the memory space of the CVs, for the main node and for the train
nodes.  One shadow store holds the fields of the virtual addresses and the arguments of the request
to the frontend, whichever node the access is for.  An access that needs the frontend is made twice:
the first call starts a flow, and the second one, after its notification, has the result. -/

namespace OpenmrnCue.CommandStation

/-! ## The shadow store -/

/-- What the memory space uses of OpenMRN: `legacy_address_from_train_node_id` of a node,
`decode_address_partition`, and the conversions of accessory addresses. -/
structure DccAddresses (Node : Type) where
  legacyAddress : Node → Option (UInt8 × Nat)
  decodeAddressPartition : Nat → Option (UInt8 × UInt16)
  accyAddressBinaryToUser : UInt16 → UInt16
  accyAddressUserToBinary : UInt16 → UInt16

def dccShortAddress : UInt8 := 1
def dccLongAddress : UInt8 := 2
def dccAccyBasicOutput : UInt8 := 4
def dccAccyExt : UInt8 := 5

def isAccessory (addressType : UInt8) : Bool :=
  addressType == dccAccyBasicOutput || addressType == dccAccyExt

/-- The bytes of `ProgrammingTrackSpaceConfig::Shadow`, by their offsets. -/
abbrev Shadow := Nat → UInt8

namespace Shadow

def modeOffset : Nat := 0
def addressTypeOffset : Nat := 1
def dccAddressOffset : Nat := 2
def cvOffset : Nat := 4
def valueOffset : Nat := 8
def bitWriteValueOffset : Nat := 10
def bitValueStringOffset : Nat := 12
def repeatVerifyOffset : Nat := 36
def repeatCooldownResetOffset : Nat := 40
def size : Nat := 44

def directMode : UInt8 := 1
def pomMode : UInt8 := 2
def pagedMode : UInt8 := 3

variable (store : Shadow)

/-- `memcpy` to the store. -/
def write (offset : Nat) (data : List UInt8) : Shadow := fun i =>
  if offset ≤ i ∧ i < offset + data.length then data.getD (i - offset) 0 else store i

/-- `memcpy` from the store. -/
def read (offset len : Nat) : List UInt8 := (List.range len).map fun i => store (offset + i)

/-- `be16toh`. -/
def be16 (offset : Nat) : UInt16 :=
  UInt16.ofNat ((store offset).toNat * 256 + (store (offset + 1)).toNat)

/-- `be32toh`. -/
def be32 (offset : Nat) : Nat :=
  (((store offset).toNat * 256 + (store (offset + 1)).toNat) * 256 +
    (store (offset + 2)).toNat) * 256 + (store (offset + 3)).toNat

/-- `htobe16`. -/
def htobe16 (n : Nat) : List UInt8 := [UInt8.ofNat (n / 256), UInt8.ofNat n]

/-- `htobe32`. -/
def htobe32 (n : Nat) : List UInt8 :=
  [UInt8.ofNat (n / 256 ^ 3), UInt8.ofNat (n / 256 ^ 2), UInt8.ofNat (n / 256), UInt8.ofNat n]

def setMode (mode : UInt8) : Shadow := store.write modeOffset [mode]
def setAddressType (addressType : UInt8) : Shadow := store.write addressTypeOffset [addressType]
def setDccAddress (address : Nat) : Shadow := store.write dccAddressOffset (htobe16 address)
def setCv (cv : Nat) : Shadow := store.write cvOffset (htobe32 cv)
def setValue (value : UInt8) : Shadow := store.write valueOffset [value]

def mode : UInt8 := store modeOffset
def addressType : UInt8 := store addressTypeOffset
def dccAddress : UInt16 := store.be16 dccAddressOffset
def cv : Nat := store.be32 cvOffset
def value : UInt8 := store valueOffset

/-- The string that `update_bits_decomposition` writes. -/
def bitsDecomposition (value : UInt8) : List UInt8 :=
  if value = 0 then "none".toList.map fun c => UInt8.ofNat c.toNat
  else
    let bits := (List.range 8).filter fun bit => value.toNat.testBit bit
    ("+".intercalate (bits.map fun bit => toString (2 ^ bit))).toList.map fun c =>
      UInt8.ofNat c.toNat

/-- `update_bits_decomposition`, with the zero at the end of the string. -/
def updateBitsDecomposition : Shadow :=
  store.write bitValueStringOffset (bitsDecomposition store.value ++ [0])

/-- After the constructor: all zero, except for `bit_write_value`. -/
def initial : Shadow := write (fun _ => 0) bitWriteValueOffset (htobe16 1000)

end Shadow

/-! ## The memory space -/

/-- `errorcode_t`: what the memory space itself reports, and the results of the frontend. -/
inductive SpaceError where
  | again
  | outOfBounds
  | unimplemented
  | result (code : ResultCode)
deriving DecidableEq, Repr

/-- The request to the frontend; `value` is 1 or 0 for bits. -/
structure CvRequest where
  cmd : RequestType
  cvOffset : Nat
  value : UInt8
  bitOffset : Nat
  addrType : UInt8
  dccAddress : UInt16
deriving DecidableEq, Repr

/-- The requests for the main track. -/
def RequestType.isPom : RequestType → Bool
  | .pomWriteByte => true
  | .pomReadByte => true
  | .pomWriteBit => true
  | _ => false

/-- `AsyncState`. -/
inductive AsyncState where
  | idle
  | pending
  | done
deriving DecidableEq, Repr

/-- The states of the flow. -/
inductive CvFlow where
  | doCvWrite
  | doBitWrite
  | doCvRead
  | cvWriteDone
  | cvReadDone
deriving DecidableEq, Repr

/-- A node that the memory space is asked to serve. -/
inductive SpaceNode (Node : Type) where
  | main
  | other (node : Node)
deriving DecidableEq, Repr

/-- `ProgrammingTrackCVSpace`, with the repeat counts that it sets in the frontend.  `flow` is
`none` when the flow is terminated. -/
structure CVSpace where
  store : Shadow
  asyncState : AsyncState
  asyncError : SpaceError
  flow : Option CvFlow
  isMainNode : Bool
  bitOperation : Bool
  bitNum : Nat
  enableServiceMode : Bool
  repeatVerify : Nat
  repeatVerifyCooldown : Nat

/-- What `read` and `write` return: the length, the error if it is set, and the data of a read. -/
structure SpaceReply where
  len : Nat
  error : Option SpaceError
  data : List UInt8
deriving DecidableEq, Repr

namespace CVSpace

def maxCv : Nat := 1023
@[irreducible] def minAddress : Nat := 0x7F100000
def maxAddress : Nat := minAddress + Shadow.size - 1

/-- The virtual addresses, of which not all belong to fields. -/
def isVirtual (address : Nat) : Bool := address / 2 ^ 24 == minAddress / 2 ^ 24

variable {Node : Type} (lib : DccAddresses Node) (s : CVSpace)

/-- `set_node`. -/
def setNode : SpaceNode Node → Bool × CVSpace
  | .main => (true, { s with isMainNode := true })
  | .other node =>
    match lib.legacyAddress node with
    | none => (false, { s with isMainNode := false })
    | some (addressType, address) =>
      if addressType = dccShortAddress ∨ addressType = dccLongAddress then
        (true, { s with
          isMainNode := false
          store := (s.store.setAddressType addressType).setDccAddress address })
      else (false, { s with isMainNode := false })

def setMode (mode : UInt8) : CVSpace := { s with store := s.store.setMode mode }

/-- The `switch` of `precompute_address` over the prefix; `hiAddress` is the partitioned address.
Where the address does not decode, `error` is not set. -/
def selectMode (hi hiAddress : Nat) : CVSpace × Except (Option SpaceError) Unit :=
  match hi with
  | 0 => (s.setMode (if s.isMainNode then Shadow.directMode else Shadow.pomMode), .ok ())
  | 1 => (s.setMode Shadow.directMode, .ok ())
  | 2 => (s.setMode Shadow.pomMode, .ok ())
  | 3 => (s.setMode Shadow.pagedMode, .ok ())
  | 4 =>
    match lib.decodeAddressPartition hiAddress with
    | none => (s.setMode Shadow.pomMode, .error none)
    | some (addressType, address) =>
      let user := if isAccessory addressType then lib.accyAddressBinaryToUser address else address
      let store := (s.store.setMode Shadow.pomMode).setAddressType addressType
      ({ s with store := store.setDccAddress user.toNat }, .ok ())
  | _ => (s, .error (some .outOfBounds))

/-- The prefixes of bit operations. -/
def isBitOperation (hi : Nat) : Bool := hi &&& 0xF8 == 0x10

/-- The check for bit operations. -/
def checkBitOperation (hi : Nat) : CVSpace :=
  if isBitOperation hi then { s with bitOperation := true, bitNum := hi &&& 7 } else s

/-- The check that only the main track is used when service mode is not enabled. -/
def checkServiceMode (cv : Nat) : CVSpace × Except (Option SpaceError) Nat :=
  if !s.enableServiceMode && s.store.mode != Shadow.pomMode then
    (s.setMode Shadow.pomMode, .error (some (.result .pgmtrackDisabled)))
  else (s, .ok cv)

/-- The partitioned address in a prefix. -/
def hiAddress (address : Nat) : Nat :=
  if address / 2 ^ 24 = 4 then address % 2 ^ 24 / 2 ^ 10 else 0

/-- The address without its prefix. -/
def cvAddress (address : Nat) : Nat :=
  if address / 2 ^ 24 = 4 then address % 2 ^ 10 else address % 2 ^ 24

/-- The part of `precompute_address` that looks at the prefix. -/
def selectPrefix (address : Nat) : CVSpace × Except (Option SpaceError) Unit :=
  let hi := address / 2 ^ 24
  (s.checkBitOperation hi).selectMode lib (if isBitOperation hi then 0 else hi) (hiAddress address)

def clearBitOperation : CVSpace := { s with bitOperation := false }

/-- `precompute_address`. -/
def precomputeAddress (address : Nat) : CVSpace × Except (Option SpaceError) Nat :=
  if isVirtual address then (s.clearBitOperation, .ok address)
  else if 1024 ≤ cvAddress address then (s.clearBitOperation, .error (some .outOfBounds))
  else
    match s.clearBitOperation.selectPrefix lib address with
    | (s, .error error) => (s, .error error)
    | (s, .ok ()) => s.checkServiceMode (cvAddress address)

/-- `eval_async_state`.  A failed assertion is `none`. -/
def evalAsyncState (start : CvFlow) (len : Nat) (data : List UInt8) :
    Option (CVSpace × SpaceReply) :=
  if s.asyncState = .done then
    some ({ s with asyncState := .idle }, ⟨len, some s.asyncError, data⟩)
  else if s.asyncState = .idle ∧ s.flow = none then
    some ({ s with flow := some start, asyncState := .pending, asyncError := .result .ok },
      ⟨0, some .again, data⟩)
  else none

/-- How many bytes `write` writes to the virtual addresses: those up to the end of the word. -/
def fieldLength (destination len : Nat) : Nat :=
  min (min len (maxAddress - destination + 1)) (destination / 4 * 4 + 4 - destination)

def writeStore (offset : Nat) (data : List UInt8) : CVSpace :=
  { s with store := s.store.write offset data }

/-- The `memcpy` of `write`. -/
def writeField (destination : Nat) (data : List UInt8) : CVSpace :=
  s.writeStore (destination - minAddress) (data.take (fieldLength destination data.length))

/-- The `switch` of `write`, by the offset of the word that has been written to. -/
def fieldWritten (field len : Nat) : Option (CVSpace × SpaceReply) :=
  if field = Shadow.valueOffset then s.evalAsyncState .doCvWrite len []
  -- `bit_write_value` starts in the middle of a word: this case is never taken.
  else if field = Shadow.bitWriteValueOffset then s.evalAsyncState .doBitWrite len []
  else if field = Shadow.repeatVerifyOffset then
    some ({ s with repeatVerify := s.store.be32 Shadow.repeatVerifyOffset }, ⟨len, none, []⟩)
  else if field = Shadow.repeatCooldownResetOffset then
    some ({ s with repeatVerifyCooldown := s.store.be32 Shadow.repeatCooldownResetOffset },
      ⟨len, none, []⟩)
  else some (s, ⟨len, none, []⟩)

/-- `write` of at least one byte. -/
def write (destination : Nat) (data : List UInt8) : Option (CVSpace × SpaceReply) :=
  match s.precomputeAddress lib destination with
  | (s, .error error) => some (s, ⟨0, error, []⟩)
  | (s, .ok destination) =>
    if destination ≤ maxCv then
      let s := { s with store := (s.store.setCv (destination + 1)).setValue (data.getD 0 0) }
      s.evalAsyncState .doCvWrite 1 []
    else if destination < minAddress ∨ maxAddress < destination then
      some (s, ⟨0, some .outOfBounds, []⟩)
    else
      (s.writeField destination data).fieldWritten (destination / 4 * 4 - minAddress)
        (fieldLength destination data.length)

/-- `read`. -/
def read (source len : Nat) : Option (CVSpace × SpaceReply) :=
  match s.precomputeAddress lib source with
  | (s, .error error) => some (s, ⟨0, error, []⟩)
  | (s, .ok source) =>
    if source ≤ maxCv then
      -- The value that is returned, if this is the second call.
      let data := [s.store.value]
      let s := { s with store := s.store.setCv (source + 1) }
      s.evalAsyncState .doCvRead 1 data
    else if source < minAddress ∨ maxAddress < source then
      some (s, ⟨0, some .outOfBounds, []⟩)
    else
      let len := min len (maxAddress - source + 1)
      let data := s.store.read (source - minAddress) len
      if source - minAddress = Shadow.valueOffset ∧ len = 1 then
        s.evalAsyncState .doCvRead len data
      else some (s, ⟨len, none, data⟩)

/-! ### The flow -/

/-- `finish_async_state`. -/
def finishAsyncState (error : SpaceError) : CVSpace :=
  { s with asyncError := error, asyncState := .done, flow := none }

/-- `reset` of a request, with the user-facing number of the CV. -/
def request (cmd : RequestType) (value : UInt8) (bit : Nat) : CvRequest :=
  ⟨cmd, (s.store.cv + (2 ^ 32 - 1)) % 2 ^ 32, value, bit, 0, 0⟩

/-- `reset` of a request for the main track, with the address from the store. -/
def pomRequest (cmd : RequestType) (value : UInt8) (bit : Nat) : CvRequest :=
  { s.request cmd value bit with
    addrType := s.store.addressType
    dccAddress := if isAccessory s.store.addressType then
      lib.accyAddressUserToBinary s.store.dccAddress else s.store.dccAddress }

def boolValue (value : Bool) : UInt8 := if value then 1 else 0

/-- `do_cv_write`. -/
def doCvWrite : CVSpace × Option CvRequest :=
  let decomposed := { s with store := s.store.updateBitsDecomposition }
  let bitValue := boolValue (s.store.value != 0)
  if s.store.mode = Shadow.directMode then
    if s.bitOperation then
      ({ s with flow := some .cvWriteDone }, some (s.request .directWriteBit bitValue s.bitNum))
    else
      ({ decomposed with flow := some .cvWriteDone },
        some (s.request .directWriteByte s.store.value 0))
  else if s.store.mode = Shadow.pagedMode ∧ ¬ s.bitOperation then
    ({ decomposed with flow := some .cvWriteDone },
      some (s.request .pagedWriteByte s.store.value 0))
  else if s.store.mode = Shadow.pomMode then
    if s.bitOperation then
      ({ s with flow := some .cvWriteDone },
        some (s.pomRequest lib .pomWriteBit bitValue s.bitNum))
    else
      -- The main track returns the actual data, so this has the exit of reads.
      ({ decomposed with flow := some .cvReadDone },
        some (s.pomRequest lib .pomWriteByte s.store.value 0))
  else (s.finishAsyncState .unimplemented, none)

/-- The bit and the new value that `do_bit_write` takes from `bit_write_value`. -/
def bitWrite (value : Nat) : Option (Option (Nat × Bool)) :=
  let findUniqueBit (exp : Nat) (newValue : Bool) :=
    ((List.range 8).find? fun bit => 2 ^ bit == exp).map fun bit => (bit, newValue)
  if 100 ≤ value ∧ value ≤ 107 then some (some (value - 100, true))
  else if 200 ≤ value ∧ value ≤ 207 then some (some (value - 200, false))
  else if 1001 ≤ value ∧ value ≤ 1128 then some (findUniqueBit (value - 1000) true)
  else if 2001 ≤ value ∧ value ≤ 2128 then some (findUniqueBit (value - 2000) false)
  else none

/-- `do_bit_write`. -/
def doBitWrite : CVSpace × Option CvRequest :=
  match bitWrite (s.store.be16 Shadow.bitWriteValueOffset).toNat with
  | none => (s.finishAsyncState (.result .ok), none)
  | some none => (s.finishAsyncState (.result .invalidArgs), none)
  | some (some (bit, newValue)) =>
    ({ s with flow := some .cvWriteDone },
      some (s.request .directWriteBit (boolValue newValue) bit))

/-- `do_cv_read`. -/
def doCvRead : CVSpace × Option CvRequest :=
  if s.store.mode = Shadow.directMode then
    ({ s with flow := some .cvReadDone }, some (s.request .directReadByte 0 0))
  else if s.store.mode = Shadow.pomMode then
    ({ s with flow := some .cvReadDone }, some (s.pomRequest lib .pomReadByte 0 0))
  else (s.finishAsyncState .unimplemented, none)

/-- The flow runs until it has sent a request or terminates. -/
def runFlow : CVSpace × Option CvRequest :=
  match s.flow with
  | some .doCvWrite => s.doCvWrite lib
  | some .doBitWrite => s.doBitWrite
  | some .doCvRead => s.doCvRead lib
  | _ => (s, none)

/-- What the frontend answers: `resultCode` and `value_`. -/
structure Answer where
  resultCode : ResultCode
  value : UInt8
deriving DecidableEq, Repr

/-- `cv_write_done` and `cv_read_done`. -/
def requestDone (answer : Answer) : CVSpace :=
  match s.flow with
  | some .cvWriteDone => s.finishAsyncState (.result answer.resultCode)
  | some .cvReadDone =>
    CVSpace.finishAsyncState
      { s with store := (s.store.setValue answer.value).updateBitsDecomposition }
      (.result answer.resultCode)
  | _ => s

/-! ### Accesses -/

/-- A read or a write. -/
inductive Operation where
  | read (address len : Nat)
  | write (address : Nat) (data : List UInt8)
deriving DecidableEq, Repr

/-- The call for an operation. -/
def call : Operation → Option (CVSpace × SpaceReply)
  | .read address len => s.read lib address len
  | .write address data => s.write lib address data

/-- `set_node`, which has to return true, and the call. -/
def callOn (node : SpaceNode Node) (operation : Operation) : Option (CVSpace × SpaceReply) :=
  if (s.setNode lib node).1 then (s.setNode lib node).2.call lib operation else none

/-- An access of a client, and what the frontend answers if it is asked. -/
structure Access (Node : Type) where
  node : SpaceNode Node
  operation : Operation
  answer : Answer
deriving DecidableEq, Repr

/-- How an access ends: the request to the frontend, if there was one, and the last reply. -/
structure Completion where
  request : Option CvRequest
  reply : SpaceReply
deriving DecidableEq, Repr

/-- An access as the memory configuration protocol makes it: when it is told to come again, it does
so after the notification with the same call. -/
def access (a : Access Node) : Option (CVSpace × Completion) := do
  let (s, reply) ← s.callOn lib a.node a.operation
  if reply.error = some .again then
    let (s, request) := s.runFlow lib
    let s := if request.isSome then s.requestDone a.answer else s
    let (s, reply) ← s.callOn lib a.node a.operation
    some (s, ⟨request, reply⟩)
  else some (s, ⟨none, reply⟩)

/-- The state after an access. -/
def step (a : Access Node) : Option CVSpace := (s.access lib a).map (·.1)

/-- After the constructor; some members are not initialised. -/
structure Initial : Prop where
  store : s.store = Shadow.initial
  asyncState : s.asyncState = .idle
  flow : s.flow = none

/-! ### What accesses store -/

/-- The type and the user-facing address that a prefix with an address stores. -/
def decodedAddress (address : Nat) : Option (UInt8 × UInt16) :=
  if address / 2 ^ 24 = 4 then
    (lib.decodeAddressPartition (address % 2 ^ 24 / 2 ^ 10)).map fun (addressType, address) =>
      (addressType,
        if isAccessory addressType then lib.accyAddressBinaryToUser address else address)
  else none

namespace Operation

def address : Operation → Nat
  | .read address _ => address
  | .write address _ => address

/-- The store with what an operation stores of address and type: the address of its prefix, or the
bytes that it writes to the fields. -/
def storeAddress (operation : Operation) (store : Shadow) : Shadow :=
  match decodedAddress lib operation.address with
  | some (addressType, address) => (store.setAddressType addressType).setDccAddress address.toNat
  | none =>
    match operation with
    | .read _ _ => store
    | .write address data =>
      if minAddress ≤ address ∧ address ≤ maxAddress then
        store.write (address - minAddress) (data.take (fieldLength address data.length))
      else store

/-- Whether an operation stores this byte of the address or the type. -/
def stores (operation : Operation) (byte : Nat) : Bool :=
  (decodedAddress lib operation.address).isSome ||
    match operation with
    | .read _ _ => false
    | .write address data =>
      minAddress ≤ address ∧ address ≤ maxAddress ∧ address - minAddress ≤ byte ∧
        byte < address - minAddress + (data.take (fieldLength address data.length)).length

/-- The CV of an operation, from 0: of its address, or for the fields the one of the CV field. -/
def cvOffset (operation : Operation) (store : Shadow) : Nat :=
  if isVirtual operation.address then (store.cv + (2 ^ 32 - 1)) % 2 ^ 32
  else operation.address % 1024

end Operation

/-- What the accesses on the main node have stored. -/
def storedByMain (history : List (Access Node)) : Shadow :=
  history.foldl (fun store a =>
    match a.node with
    | .main => a.operation.storeAddress lib store
    | .other _ => store) Shadow.initial

/-- No access on a train node has come after the last access on the main node that stored this
byte. -/
def undisturbed (history : List (Access Node)) (byte : Nat) : Bool :=
  history.foldl (fun clean a =>
    match a.node with
    | .main => clean || a.operation.stores lib byte
    | .other _ => false) true

/-- The bytes of the type and the address. -/
def addressBytes : List Nat := [1, 2, 3]

/-- No access on a train node has come after the accesses on the main node that stored the bytes of
the type and the address last. -/
def Undisturbed (history : List (Access Node)) : Prop :=
  ∀ byte ∈ addressBytes, undisturbed lib history byte = true

instance (history : List (Access Node)) : Decidable (Undisturbed lib history) := by
  unfold Undisturbed
  infer_instance

/-- The type and the address that a request for the main track has from a store. -/
def target (store : Shadow) : UInt8 × UInt16 :=
  (store.addressType,
    if isAccessory store.addressType then lib.accyAddressUserToBinary store.dccAddress
    else store.dccAddress)

end CVSpace

namespace Shadow

variable {store store' : Shadow} {offset k n : Nat} {data : List UInt8}

/-! ## Stored bytes -/

theorem write_of_lt (h : k < offset) : store.write offset data k = store k := by
  rw [write, if_neg (by omega)]

theorem write_of_le (h : offset + data.length ≤ k) : store.write offset data k = store k := by
  rw [write, if_neg (by omega)]

/-- Bytes that are written do not depend on the store. -/
theorem write_of_mem (hle : offset ≤ k) (hlt : k < offset + data.length) :
    store.write offset data k = data.getD (k - offset) 0 := by
  rw [write, if_pos ⟨hle, hlt⟩]

theorem write_single (store : Shadow) (offset : Nat) (byte : UInt8) :
    store.write offset [byte] offset = byte := by
  rw [write_of_mem (Nat.le_refl offset) (by simp), Nat.sub_self]
  rfl

theorem be16_write (n : Nat) : (store.write offset (htobe16 n)).be16 offset = UInt16.ofNat n := by
  have hhigh : store.write offset (htobe16 n) offset = UInt8.ofNat (n / 256) := by
    rw [write_of_mem (Nat.le_refl offset) (by simp [htobe16]), Nat.sub_self]
    rfl
  have hlow : store.write offset (htobe16 n) (offset + 1) = UInt8.ofNat n := by
    rw [write_of_mem (by omega) (by simp [htobe16]), Nat.add_sub_cancel_left]
    rfl
  rw [be16, hhigh, hlow]
  apply UInt16.toNat_inj.mp
  simp only [UInt16.toNat_ofNat', UInt8.toNat_ofNat']
  omega

theorem cv_setCv (h : n < 2 ^ 32) : (store.setCv n).cv = n := by
  have hbyte : ∀ i, (hi : i < 4) → store.setCv n (cvOffset + i) = (htobe32 n).getD i 0 := by
    intro i hi
    rw [setCv, write_of_mem (Nat.le_add_right _ _) (by simpa [htobe32] using hi),
      Nat.add_sub_cancel_left]
  have h0 := hbyte 0 (by decide)
  have h1 := hbyte 1 (by decide)
  have h2 := hbyte 2 (by decide)
  have h3 := hbyte 3 (by decide)
  rw [cv, be32, h1, h2, h3, show store.setCv n cvOffset = _ from h0]
  simp [htobe32]
  omega

end Shadow

end OpenmrnCue.CommandStation
