import OpenmrnCue.CommandStation.ProgrammingTrackCVSpace

/-! Accesses to `ProgrammingTrackCVSpace`: every access completes with the result of its own
request, which names its own CV.  Requests for the main track have the address of the train node, or
the address that the main node has stored, unless a train node has been accessed since. -/

namespace OpenmrnCue.CommandStation.CVSpace

variable {Node : Type} {lib : DccAddresses Node} {s t u : CVSpace}

/-! ## The address of a call -/

/-- What the control flow of a call depends on. -/
structure Same (s u : CVSpace) : Prop where
  isMainNode : u.isMainNode = s.isMainNode
  enableServiceMode : u.enableServiceMode = s.enableServiceMode

/-- The asynchronous state is not touched. -/
structure Keeps (s t : CVSpace) : Prop where
  asyncState : t.asyncState = s.asyncState
  asyncError : t.asyncError = s.asyncError
  flow : t.flow = s.flow
  isMainNode : t.isMainNode = s.isMainNode
  enableServiceMode : t.enableServiceMode = s.enableServiceMode

theorem Keeps.refl (s : CVSpace) : Keeps s s := ⟨rfl, rfl, rfl, rfl, rfl⟩

theorem Keeps.trans (h : Keeps s t) (h' : Keeps t u) : Keeps s u :=
  ⟨h'.asyncState.trans h.asyncState, h'.asyncError.trans h.asyncError, h'.flow.trans h.flow,
    h'.isMainNode.trans h.isMainNode, h'.enableServiceMode.trans h.enableServiceMode⟩

theorem Keeps.withStore (h : Keeps s t) (store : Shadow) : Keeps s { t with store := store } :=
  ⟨h.asyncState, h.asyncError, h.flow, h.isMainNode, h.enableServiceMode⟩

/-- The store with the address that a prefix decodes to. -/
def storeDecoded (lib : DccAddresses Node) (address : Nat) (store : Shadow) : Shadow :=
  match decodedAddress lib address with
  | some (addressType, address) => (store.setAddressType addressType).setDccAddress address.toNat
  | none => store

/-- What `precompute_address` does to the state: it stores the decoded address and the mode. -/
structure Decodes (lib : DccAddresses Node) (address : Nat) (s t : CVSpace) : Prop where
  keeps : Keeps s t
  address : ∀ byte ∈ addressBytes, t.store byte = storeDecoded lib address s.store byte
  rest : ∀ byte, 4 ≤ byte → t.store byte = s.store byte

theorem setMode_of_pos (store : Shadow) (mode : UInt8) {byte : Nat} (h : 0 < byte) :
    store.setMode mode byte = store byte := by
  rw [Shadow.setMode, Shadow.write_of_le]
  exact h

theorem addressBytes_pos {byte : Nat} (h : byte ∈ addressBytes) : 0 < byte ∧ byte < 4 := by
  simp only [addressBytes, List.mem_cons, List.not_mem_nil, or_false] at h
  omega

theorem Decodes.of_none {address : Nat} (h : decodedAddress lib address = none)
    (hkeeps : Keeps s t) (hstore : ∀ byte, 0 < byte → t.store byte = s.store byte) :
    Decodes lib address s t where
  keeps := hkeeps
  address byte hbyte := by
    rw [hstore byte (addressBytes_pos hbyte).1, storeDecoded, h]
  rest byte hbyte := hstore byte (by omega)

theorem setDccAddress_of_lt (store : Shadow) (n : Nat) {byte : Nat}
    (h : byte < 2 ∨ 4 ≤ byte) : store.setDccAddress n byte = store byte := by
  rcases h with hlt | hle
  · exact Shadow.write_of_lt hlt
  · exact Shadow.write_of_le hle

theorem setAddressType_of_ne (store : Shadow) (addressType : UInt8) {byte : Nat}
    (h : byte ≠ 1) : store.setAddressType addressType byte = store byte := by
  rcases Nat.lt_or_gt_of_ne h with hlt | hgt
  · exact Shadow.write_of_lt hlt
  · exact Shadow.write_of_le hgt

/-- What is stored of an address does not depend on the store. -/
theorem setAddress_congr (addressType : UInt8) (n : Nat) (store store' : Shadow) {byte : Nat}
    (h : byte ∈ addressBytes) : (store.setAddressType addressType).setDccAddress n byte =
      (store'.setAddressType addressType).setDccAddress n byte := by
  obtain ⟨hpos, hlt⟩ := addressBytes_pos h
  by_cases hbyte : byte = 1
  · subst hbyte
    have hlt : 1 < 2 ∨ 4 ≤ 1 := .inl (by decide)
    rw [setDccAddress_of_lt _ _ hlt, setDccAddress_of_lt _ _ hlt]
    exact (Shadow.write_single _ _ _).trans (Shadow.write_single _ _ _).symm
  · have hle : Shadow.dccAddressOffset ≤ byte := by
      simp only [Shadow.dccAddressOffset]
      omega
    have hend : byte < Shadow.dccAddressOffset + (Shadow.htobe16 n).length := by
      simp only [Shadow.dccAddressOffset, Shadow.htobe16, List.length_cons, List.length_nil]
      omega
    rw [Shadow.setDccAddress, Shadow.setDccAddress, Shadow.write_of_mem hle hend,
      Shadow.write_of_mem hle hend]

@[simp] theorem mode_setMode (store : Shadow) (mode : UInt8) : (store.setMode mode).mode = mode :=
  store.write_single Shadow.modeOffset mode

/-- The mode and whether there is an error depend on the prefix and the node. -/
theorem selectMode_same (h : Same s u) (hi hiAddress : Nat) :
    (u.selectMode lib hi hiAddress).2 = (s.selectMode lib hi hiAddress).2 ∧
      ((s.selectMode lib hi hiAddress).2 = .ok () →
        (u.selectMode lib hi hiAddress).1.store.mode =
          (s.selectMode lib hi hiAddress).1.store.mode) := by
  match hi with
  | 0 =>
    refine ⟨rfl, fun _ => ?_⟩
    simp [selectMode, setMode, h.isMainNode]
  | 1 => exact ⟨rfl, fun _ => by simp [selectMode, setMode]⟩
  | 2 => exact ⟨rfl, fun _ => by simp [selectMode, setMode]⟩
  | 3 => exact ⟨rfl, fun _ => by simp [selectMode, setMode]⟩
  | 4 =>
    cases hdecode : lib.decodeAddressPartition hiAddress with
    | none => exact ⟨by simp [selectMode, hdecode], fun _ => by simp [selectMode, hdecode, setMode]⟩
    | some decoded =>
      refine ⟨by simp [selectMode, hdecode], fun _ => ?_⟩
      simp only [selectMode, hdecode, Shadow.mode, Shadow.modeOffset]
      rw [setDccAddress_of_lt _ _ (.inl (by decide)), setAddressType_of_ne _ _ (by decide),
        setDccAddress_of_lt _ _ (.inl (by decide)), setAddressType_of_ne _ _ (by decide)]
      exact (mode_setMode _ _).trans (mode_setMode _ _).symm
  | hi + 5 => exact ⟨rfl, fun hok => by cases hok⟩

/-- What the prefix decodes to is stored. -/
theorem selectMode_decodes (lib : DccAddresses Node) {hi address : Nat} (s : CVSpace)
    (hhi : hi = address / 2 ^ 24 ∨ decodedAddress lib address = none ∧ hi = 0) :
    Decodes lib address s (s.selectMode lib hi (hiAddress address)).1 ∧
      (s.selectMode lib hi (hiAddress address)).2 ≠ .error (some .again) := by
  have hmode : ∀ mode : UInt8, decodedAddress lib address = none →
      Decodes lib address s (s.setMode mode) := fun mode hnone =>
    .of_none hnone ⟨rfl, rfl, rfl, rfl, rfl⟩ fun byte hbyte => setMode_of_pos s.store mode hbyte
  have hnone : hi ≠ 4 → decodedAddress lib address = none := by
    intro hne
    rcases hhi with rfl | ⟨hnone, -⟩
    · rw [decodedAddress, if_neg hne]
    · exact hnone
  match hi, hhi, hnone with
  | 0, _, hnone => exact ⟨hmode _ (hnone (by decide)), by simp [selectMode]⟩
  | 1, _, hnone => exact ⟨hmode _ (hnone (by decide)), by simp [selectMode]⟩
  | 2, _, hnone => exact ⟨hmode _ (hnone (by decide)), by simp [selectMode]⟩
  | 3, _, hnone => exact ⟨hmode _ (hnone (by decide)), by simp [selectMode]⟩
  | 4, hhi, _ =>
    have hfour : address / 2 ^ 24 = 4 := (hhi.resolve_right fun h => by omega).symm
    cases hdecode : lib.decodeAddressPartition (address % 2 ^ 24 / 2 ^ 10) with
    | none =>
      have hnone : decodedAddress lib address = none := by
        rw [decodedAddress, if_pos hfour, hdecode]
        rfl
      simp only [selectMode, hiAddress, if_pos hfour, hdecode]
      exact ⟨hmode Shadow.pomMode hnone, by simp⟩
    | some decoded =>
      obtain ⟨addressType, dccAddress⟩ := decoded
      simp only [selectMode, hiAddress, if_pos hfour, hdecode]
      refine ⟨⟨⟨rfl, rfl, rfl, rfl, rfl⟩, fun byte hbyte => ?_, fun byte hbyte => ?_⟩, by simp⟩
      · rw [storeDecoded, decodedAddress, if_pos hfour, hdecode]
        simp only [Option.map_some]
        exact setAddress_congr _ _ _ _ hbyte
      · simp only
        rw [setDccAddress_of_lt _ _ (.inr hbyte), setAddressType_of_ne _ _ (by omega),
          setMode_of_pos _ _ (by omega)]
  | hi + 5, _, hnone =>
    exact ⟨.of_none (hnone (by omega)) (.refl s) fun _ _ => rfl, by simp [selectMode]⟩

theorem checkBitOperation_keeps (s : CVSpace) (hi : Nat) :
    Keeps s (s.checkBitOperation hi) ∧ (s.checkBitOperation hi).store = s.store := by
  unfold checkBitOperation
  split <;> exact ⟨⟨rfl, rfl, rfl, rfl, rfl⟩, rfl⟩

theorem Keeps.same (h : Keeps s t) : Same s t := ⟨h.isMainNode, h.enableServiceMode⟩

theorem selectPrefix_same (lib : DccAddresses Node) (h : Same s u) (address : Nat) :
    (u.selectPrefix lib address).2 = (s.selectPrefix lib address).2 ∧
      ((s.selectPrefix lib address).2 = .ok () →
        (u.selectPrefix lib address).1.store.mode = (s.selectPrefix lib address).1.store.mode) := by
  have hs := (checkBitOperation_keeps s (address / 2 ^ 24)).1
  have hu := (checkBitOperation_keeps u (address / 2 ^ 24)).1
  have hsame : Same (s.checkBitOperation (address / 2 ^ 24))
      (u.checkBitOperation (address / 2 ^ 24)) :=
    ⟨(hu.isMainNode.trans h.isMainNode).trans hs.isMainNode.symm,
      (hu.enableServiceMode.trans h.enableServiceMode).trans hs.enableServiceMode.symm⟩
  exact selectMode_same hsame _ _

theorem selectPrefix_decodes (lib : DccAddresses Node) (s : CVSpace) (address : Nat) :
    Decodes lib address s (s.selectPrefix lib address).1 ∧
      (s.selectPrefix lib address).2 ≠ .error (some .again) := by
  obtain ⟨hkeeps, hstore⟩ := checkBitOperation_keeps s (address / 2 ^ 24)
  have hhi : (if isBitOperation (address / 2 ^ 24) then 0 else address / 2 ^ 24) =
      address / 2 ^ 24 ∨ decodedAddress lib address = none ∧
        (if isBitOperation (address / 2 ^ 24) then 0 else address / 2 ^ 24) = 0 := by
    cases hbitop : isBitOperation (address / 2 ^ 24) with
    | false => exact .inl rfl
    | true =>
      refine .inr ⟨?_, rfl⟩
      rw [decodedAddress, if_neg]
      intro hfour
      rw [hfour] at hbitop
      exact absurd hbitop (by decide)
  obtain ⟨hdecodes, hagain⟩ :=
    selectMode_decodes lib (s.checkBitOperation (address / 2 ^ 24)) hhi
  exact ⟨⟨hkeeps.trans hdecodes.keeps, hstore ▸ hdecodes.address, hstore ▸ hdecodes.rest⟩, hagain⟩

theorem checkServiceMode_same (h : Same s u) (hmode : u.store.mode = s.store.mode) (cv : Nat) :
    (u.checkServiceMode cv).2 = (s.checkServiceMode cv).2 := by
  rw [checkServiceMode, checkServiceMode, h.enableServiceMode, hmode]
  split <;> rfl

theorem precomputeAddress_of_virtual {address : Nat} (h : isVirtual address = true) :
    s.precomputeAddress lib address = (s.clearBitOperation, .ok address) := by
  rw [precomputeAddress, if_pos h]

theorem precomputeAddress_of_bounds {address : Nat} (h : isVirtual address = false)
    (hcv : 1024 ≤ cvAddress address) : s.precomputeAddress lib address =
      (s.clearBitOperation, .error (some .outOfBounds)) := by
  rw [precomputeAddress, if_neg (by simp [h]), if_pos hcv]

theorem precomputeAddress_of_select (lib : DccAddresses Node) (s : CVSpace) {address : Nat}
    (h : isVirtual address = false)
    (hcv : ¬ 1024 ≤ cvAddress address) :
    (∃ error, (s.clearBitOperation.selectPrefix lib address).2 = .error error ∧
      s.precomputeAddress lib address =
        ((s.clearBitOperation.selectPrefix lib address).1, .error error)) ∨
    ((s.clearBitOperation.selectPrefix lib address).2 = .ok () ∧
      s.precomputeAddress lib address =
        (s.clearBitOperation.selectPrefix lib address).1.checkServiceMode
          (cvAddress address)) := by
  rw [precomputeAddress, if_neg (by simp [h]), if_neg hcv]
  rcases s.clearBitOperation.selectPrefix lib address with ⟨t, error | ⟨⟨⟩⟩⟩
  · exact .inl ⟨error, rfl, rfl⟩
  · exact .inr ⟨rfl, rfl⟩

/-- The address without its prefix, and the errors, depend on the address and the node. -/
theorem precomputeAddress_same (h : Same s u) (address : Nat) :
    (u.precomputeAddress lib address).2 = (s.precomputeAddress lib address).2 := by
  have h' : Same s.clearBitOperation u.clearBitOperation :=
    ⟨h.isMainNode, h.enableServiceMode⟩
  obtain ⟨hresult, hmode⟩ := selectPrefix_same lib h' address
  cases hvirtual : isVirtual address with
  | true => rw [precomputeAddress_of_virtual hvirtual, precomputeAddress_of_virtual hvirtual]
  | false =>
    by_cases hcv : 1024 ≤ cvAddress address
    · rw [precomputeAddress_of_bounds hvirtual hcv, precomputeAddress_of_bounds hvirtual hcv]
    · rcases precomputeAddress_of_select lib s hvirtual hcv with
        ⟨error, herror, hs⟩ | ⟨hok, hs⟩
      · rcases precomputeAddress_of_select lib u hvirtual hcv with
          ⟨error', herror', hu⟩ | ⟨hok', -⟩
        · rw [herror, herror'] at hresult
          rw [hs, hu]
          exact congrArg Except.error (Except.error.inj hresult)
        · rw [herror, hok'] at hresult
          cases hresult
      · rcases precomputeAddress_of_select lib u hvirtual hcv with
          ⟨error', herror', -⟩ | ⟨hok', hu⟩
        · rw [hok, herror'] at hresult
          cases hresult
        · rw [hs, hu]
          have hs' := (selectPrefix_decodes lib s.clearBitOperation address).1.keeps
          have hu' := (selectPrefix_decodes lib u.clearBitOperation address).1.keeps
          refine checkServiceMode_same ⟨?_, ?_⟩ (hmode hok) _
          · exact (hu'.isMainNode.trans h'.isMainNode).trans hs'.isMainNode.symm
          · exact (hu'.enableServiceMode.trans h'.enableServiceMode).trans
              hs'.enableServiceMode.symm

theorem checkServiceMode_cases (s : CVSpace) (cv : Nat) :
    s.checkServiceMode cv = (s, .ok cv) ∨
      s.checkServiceMode cv =
        (s.setMode Shadow.pomMode, .error (some (.result .pgmtrackDisabled))) := by
  unfold checkServiceMode
  split
  · exact .inr rfl
  · exact .inl rfl

theorem cvAddress_eq {address : Nat} (h : ¬ 1024 ≤ cvAddress address) :
    cvAddress address = address % 1024 := by
  by_cases hfour : address / 2 ^ 24 = 4
  · have heq : cvAddress address = address % 2 ^ 10 := if_pos hfour
    omega
  · rw [cvAddress, if_neg hfour] at h ⊢
    omega

theorem decodedAddress_of_virtual (lib : DccAddresses Node) {address : Nat}
    (h : isVirtual address = true) : decodedAddress lib address = none := by
  rw [decodedAddress, if_neg]
  intro hfour
  rw [isVirtual, hfour, beq_iff_eq] at h
  unfold minAddress at h
  exact absurd h (by decide)

theorem precomputeAddress_decodes (lib : DccAddresses Node) (s : CVSpace) (address : Nat) :
    Decodes lib address s (s.precomputeAddress lib address).1 ∧
      (s.precomputeAddress lib address).2 ≠ .error (some .again) ∧
      ∀ cv, (s.precomputeAddress lib address).2 = .ok cv →
        cv = if isVirtual address then address else address % 1024 := by
  have hbare : decodedAddress lib address = none → Decodes lib address s s.clearBitOperation :=
    fun hnone => .of_none hnone ⟨rfl, rfl, rfl, rfl, rfl⟩ fun _ _ => rfl
  cases hvirtual : isVirtual address with
  | true =>
    rw [precomputeAddress_of_virtual hvirtual]
    refine ⟨hbare ?_, by simp, fun cv heq => (Except.ok.inj heq).symm⟩
    exact decodedAddress_of_virtual lib hvirtual
  | false =>
    by_cases hcv : 1024 ≤ cvAddress address
    · rw [precomputeAddress_of_bounds hvirtual hcv]
      refine ⟨hbare ?_, by simp, fun cv heq => by cases heq⟩
      rw [decodedAddress, if_neg]
      intro hfour
      rw [cvAddress, if_pos hfour] at hcv
      omega
    · obtain ⟨hdecodes, hagain⟩ := selectPrefix_decodes lib s.clearBitOperation address
      have hdecodes : Decodes lib address s (s.clearBitOperation.selectPrefix lib address).1 :=
        ⟨⟨hdecodes.keeps.asyncState, hdecodes.keeps.asyncError, hdecodes.keeps.flow,
          hdecodes.keeps.isMainNode, hdecodes.keeps.enableServiceMode⟩, hdecodes.address,
          hdecodes.rest⟩
      rcases precomputeAddress_of_select lib s hvirtual hcv with
        ⟨error, herror, hs⟩ | ⟨hok, hs⟩
      · rw [hs]
        refine ⟨hdecodes, fun heq => hagain ?_, fun cv heq => by cases heq⟩
        rw [herror, Except.error.inj heq]
      · rw [hs]
        rcases checkServiceMode_cases (s.clearBitOperation.selectPrefix lib address).1
          (cvAddress address) with heq | heq
        · rw [heq]
          refine ⟨hdecodes, by simp, fun cv heq => ?_⟩
          rw [← Except.ok.inj heq, cvAddress_eq hcv]
          rfl
        · rw [heq]
          refine ⟨⟨hdecodes.keeps.withStore _, fun byte hbyte => ?_, fun byte hbyte => ?_⟩,
            by simp, fun cv heq => by cases heq⟩
          · exact (setMode_of_pos _ _ (addressBytes_pos hbyte).1).trans
              (hdecodes.address byte hbyte)
          · exact (setMode_of_pos _ _ (by omega)).trans (hdecodes.rest byte hbyte)

/-! ## Calls -/

/-- What a call has done to the store before it starts the flow or returns. -/
structure Stores (lib : DccAddresses Node) (operation : Operation) (s t : CVSpace) : Prop where
  keeps : Keeps s t
  address : ∀ byte ∈ addressBytes, t.store byte = operation.storeAddress lib s.store byte

/-- A call that comes as far as the flow: it is the same in all states that agree. -/
structure Starts (lib : DccAddresses Node) (operation : Operation) (s : CVSpace) (start : CvFlow)
    (len : Nat) (t : CVSpace) (data : List UInt8) : Prop where
  call : s.call lib operation = t.evalAsyncState start len data
  entry : start = .doCvWrite ∨ start = .doCvRead
  stores : Stores lib operation s t
  bare : operation.address / 2 ^ 24 ≠ 4 → ∀ byte ∈ addressBytes, t.store byte = s.store byte
  cvOffset : (t.store.cv + (2 ^ 32 - 1)) % 2 ^ 32 = operation.cvOffset s.store
  read : ∀ address n, operation = .read address n →
    start = .doCvRead ∧ data = [s.store.value]

theorem storeAddress_of_not_write {operation : Operation} (store : Shadow) {byte : Nat}
    (h : ∀ address data, operation = .write address data →
      ¬ (minAddress ≤ address ∧ address ≤ maxAddress)) :
    operation.storeAddress lib store byte = storeDecoded lib operation.address store byte := by
  unfold Operation.storeAddress storeDecoded
  cases hdecoded : decodedAddress lib operation.address with
  | some decoded => rfl
  | none =>
    cases operation with
    | read address n => rfl
    | write address data =>
      simp only
      rw [if_neg (h address data rfl)]

theorem setCv_of_ne (store : Shadow) (n : Nat) {byte : Nat} (h : byte < 4 ∨ 8 ≤ byte) :
    store.setCv n byte = store byte := by
  rcases h with hlt | hle
  · exact Shadow.write_of_lt hlt
  · exact Shadow.write_of_le hle

theorem setValue_of_ne (store : Shadow) (value : UInt8) {byte : Nat} (h : byte ≠ 8) :
    store.setValue value byte = store byte := by
  rcases Nat.lt_or_gt_of_ne h with hlt | hgt
  · exact Shadow.write_of_lt hlt
  · exact Shadow.write_of_le hgt

theorem cv_congr {store store' : Shadow} (h : ∀ byte, 4 ≤ byte → byte < 8 →
    store byte = store' byte) : store.cv = store'.cv := by
  simp only [Shadow.cv, Shadow.be32, Shadow.cvOffset]
  rw [h 4 (by omega) (by omega), h (4 + 1) (by omega) (by omega), h (4 + 2) (by omega) (by omega),
    h (4 + 3) (by omega) (by omega)]

/-- Without an address in the prefix, the address stays. -/
theorem Decodes.bare {address : Nat} (h : Decodes lib address s t) (hne : address / 2 ^ 24 ≠ 4) :
    ∀ byte ∈ addressBytes, t.store byte = s.store byte := by
  intro byte hbyte
  rw [h.address byte hbyte, storeDecoded, decodedAddress, if_neg hne]

theorem Decodes.stores {operation : Operation} (h : Decodes lib operation.address s t)
    (hwrite : ∀ address data, operation = .write address data →
      ¬ (minAddress ≤ address ∧ address ≤ maxAddress)) : Stores lib operation s t where
  keeps := h.keeps
  address byte hbyte := by rw [h.address byte hbyte, storeAddress_of_not_write s.store hwrite]

theorem precomputeAddress_ok (lib : DccAddresses Node) {address cv : Nat}
    (hok : (s.precomputeAddress lib address).2 = .ok cv) (h : Same s u) :
    ∃ t, u.precomputeAddress lib address = (t, .ok cv) ∧ Decodes lib address u t :=
  ⟨_, Prod.ext rfl ((precomputeAddress_same h address).trans hok),
    (precomputeAddress_decodes lib u address).1⟩

theorem lt_of_isVirtual {address : Nat} (h : isVirtual address = true) : maxCv < address := by
  have heq : address / 2 ^ 24 = minAddress / 2 ^ 24 := by simpa [isVirtual] using h
  simp only [minAddress, maxCv] at heq ⊢
  omega

theorem isVirtual_of_field {address : Nat} (h : minAddress ≤ address ∧ address ≤ maxAddress) :
    isVirtual address = true := by
  simp only [isVirtual, minAddress, maxAddress, Shadow.size, beq_iff_eq] at *
  omega

/-- The address of a CV. -/
theorem cvOffset_setCv {operation : Operation} {cv : Nat} (store store' : Shadow)
    (hcv : cv = if isVirtual operation.address then operation.address
      else operation.address % 1024) (hlow : cv ≤ maxCv) :
    ((store.setCv (cv + 1)).cv + (2 ^ 32 - 1)) % 2 ^ 32 = operation.cvOffset store' := by
  cases hvirtual : isVirtual operation.address with
  | true =>
    rw [if_pos hvirtual] at hcv
    exact absurd hlow (by rw [hcv]; exact Nat.not_le.mpr (lt_of_isVirtual hvirtual))
  | false =>
    rw [if_neg (by simp [hvirtual])] at hcv
    simp only [maxCv] at hlow
    rw [Operation.cvOffset, if_neg (by simp [hvirtual]), ← hcv, Shadow.cv_setCv (by omega)]
    omega

theorem cvOffset_of_virtual (operation : Operation) (h : isVirtual operation.address = true)
    {store store' : Shadow} (hrest : ∀ byte, 4 ≤ byte → byte < 8 → store byte = store' byte) :
    (store.cv + (2 ^ 32 - 1)) % 2 ^ 32 = operation.cvOffset store' := by
  rw [Operation.cvOffset, if_pos h, cv_congr hrest]

theorem cvOffset_congr {operation : Operation} {store store' : Shadow}
    (h : ∀ byte, 4 ≤ byte → store byte = store' byte) :
    operation.cvOffset store = operation.cvOffset store' := by
  rw [Operation.cvOffset, Operation.cvOffset, cv_congr fun byte hle _ => h byte hle]

/-- An address that is none of a CV is virtual. -/
theorem isVirtual_of_lt {address cv : Nat}
    (hcv : cv = if isVirtual address then address else address % 1024) (hhigh : ¬ cv ≤ maxCv) :
    isVirtual address = true ∧ cv = address := by
  cases hvirtual : isVirtual address with
  | true => exact ⟨rfl, by rw [hcv, if_pos hvirtual]⟩
  | false =>
    rw [if_neg (by simp [hvirtual])] at hcv
    simp only [maxCv] at hhigh
    omega

/-- A call of `read` returns at once, or comes as far as the flow. -/
theorem read_cases (lib : DccAddresses Node) (s : CVSpace) (address n : Nat) :
    (∃ t reply, s.call lib (.read address n) = some (t, reply) ∧ reply.error ≠ some .again ∧
      Stores lib (.read address n) s t) ∨
    ∃ start len, ∀ u, Same s u → ∃ t data, Starts lib (.read address n) u start len t data := by
  have hread : ∀ address' data, Operation.read address n = .write address' data →
      ¬ (minAddress ≤ address' ∧ address' ≤ maxAddress) := fun _ _ heq => by cases heq
  obtain ⟨hdecodes, hagain, hcv⟩ := precomputeAddress_decodes lib s address
  cases hresult : (s.precomputeAddress lib address).2 with
  | error error =>
    refine .inl ⟨_, ⟨0, error, []⟩, ?_, fun heq => ?_, Decodes.stores hdecodes hread⟩
    · have heq : s.precomputeAddress lib address =
          ((s.precomputeAddress lib address).1, .error error) := Prod.ext rfl hresult
      simp only [call, read]
      rw [heq]
    · exact hagain (hresult.trans (congrArg Except.error heq))
  | ok source =>
    have hsource := hcv source hresult
    obtain ⟨p, hp, hdecodes⟩ := precomputeAddress_ok lib hresult ⟨rfl, rfl⟩
    by_cases hlow : source ≤ maxCv
    · refine .inr ⟨.doCvRead, 1, fun u hu => ?_⟩
      obtain ⟨t, ht, hdecodes⟩ := precomputeAddress_ok lib hresult hu
      refine ⟨{ t with store := t.store.setCv (source + 1) }, [t.store.value], ?_, .inr rfl,
        ⟨hdecodes.keeps.withStore _, fun byte hbyte => ?_⟩,
        fun hne byte hbyte => ?_, cvOffset_setCv t.store u.store hsource hlow,
        fun _ _ _ => ⟨rfl, ?_⟩⟩
      · simp only [call, read]
        rw [ht]
        simp only
        rw [if_pos hlow]
      · exact (setCv_of_ne _ _ (.inl (addressBytes_pos hbyte).2)).trans
          ((hdecodes.stores hread).address byte hbyte)
      · exact (setCv_of_ne _ _ (.inl (addressBytes_pos hbyte).2)).trans
          (hdecodes.bare hne byte hbyte)
      · rw [Shadow.value, Shadow.value, hdecodes.rest _ (by decide)]
    · obtain ⟨hvirtual, rfl⟩ := isVirtual_of_lt hsource hlow
      by_cases hbounds : source < minAddress ∨ maxAddress < source
      · refine .inl ⟨p, ⟨0, some .outOfBounds, []⟩, ?_, by simp, hdecodes.stores hread⟩
        simp only [call, read]
        rw [hp]
        simp only
        rw [if_neg hlow, if_pos hbounds]
      by_cases hfield : source - minAddress = Shadow.valueOffset ∧
          min n (maxAddress - source + 1) = 1
      · refine .inr ⟨.doCvRead, 1, fun u hu => ?_⟩
        obtain ⟨t, ht, hdecodes⟩ := precomputeAddress_ok lib hresult hu
        refine ⟨t, [t.store.value], ?_, .inr rfl, hdecodes.stores hread, hdecodes.bare, ?_,
          fun _ _ _ => ⟨rfl, ?_⟩⟩
        · simp only [call, read]
          rw [ht]
          simp only
          rw [if_neg hlow, if_neg hbounds, if_pos hfield, hfield.1, hfield.2]
          rfl
        · exact cvOffset_of_virtual (.read source n) hvirtual
            fun byte hle _ => hdecodes.rest byte hle
        · rw [Shadow.value, Shadow.value, hdecodes.rest _ (by decide)]
      · refine .inl ⟨p, ⟨min n (maxAddress - source + 1), none, p.store.read (source - minAddress)
          (min n (maxAddress - source + 1))⟩, ?_, by simp, hdecodes.stores hread⟩
        simp only [call, read]
        rw [hp]
        simp only
        rw [if_neg hlow, if_neg hbounds, if_neg hfield]

theorem write_congr {store store' : Shadow} {offset byte : Nat} (data : List UInt8)
    (h : store byte = store' byte) :
    store.write offset data byte = store'.write offset data byte := by
  unfold Shadow.write
  rw [h]

theorem writeStore_keeps (s : CVSpace) (offset : Nat) (data : List UInt8) :
    Keeps s (s.writeStore offset data) := ⟨rfl, rfl, rfl, rfl, rfl⟩

theorem writeField_store (s : CVSpace) (destination : Nat) (data : List UInt8) :
    (s.writeField destination data).store = s.store.write (destination - minAddress)
      (data.take (fieldLength destination data.length)) := rfl

theorem storeAddress_field {address : Nat} {data : List UInt8}
    (hnone : decodedAddress lib address = none)
    (hbounds : minAddress ≤ address ∧ address ≤ maxAddress) (store : Shadow) :
    Operation.storeAddress lib (.write address data) store =
      store.write (address - minAddress) (data.take (fieldLength address data.length)) := by
  simp only [Operation.storeAddress, Operation.address, hnone]
  rw [if_pos hbounds]

/-- What `write` has done after it has copied the data to a field. -/
theorem stores_field {address : Nat} (data : List UInt8)
    (hvirtual : isVirtual address = true)
    (hbounds : ¬ (address < minAddress ∨ maxAddress < address)) (h : Decodes lib address s t) :
    Stores lib (.write address data) s (t.writeField address data) where
  keeps := h.keeps.trans (writeStore_keeps t _ _)
  address byte hbyte := by
    have hnone := decodedAddress_of_virtual lib hvirtual
    have hsame : t.store byte = s.store byte := by
      rw [h.address byte hbyte, storeDecoded, hnone]
    rw [storeAddress_field hnone (by omega), writeField_store]
    exact write_congr _ hsame

/-- A write to a field that is no value returns at once. -/
theorem fieldWritten_cases (s : CVSpace) {field : Nat} (len : Nat)
    (hvalue : field ≠ Shadow.valueOffset) (hbit : field ≠ Shadow.bitWriteValueOffset) :
    ∃ t, s.fieldWritten field len = some (t, ⟨len, none, []⟩) ∧ Keeps s t ∧ t.store = s.store := by
  rw [fieldWritten, if_neg hvalue, if_neg hbit]
  split
  · exact ⟨_, rfl, ⟨rfl, rfl, rfl, rfl, rfl⟩, rfl⟩
  · split
    · exact ⟨_, rfl, ⟨rfl, rfl, rfl, rfl, rfl⟩, rfl⟩
    · exact ⟨_, rfl, .refl s, rfl⟩

/-- A call of `write` returns at once, or comes as far as the flow. -/
theorem write_cases (lib : DccAddresses Node) (s : CVSpace) (address : Nat) (data : List UInt8) :
    (∃ t reply, s.call lib (.write address data) = some (t, reply) ∧
      reply.error ≠ some .again ∧ Stores lib (.write address data) s t) ∨
    ∃ start len, ∀ u, Same s u →
      ∃ t reply, Starts lib (.write address data) u start len t reply := by
  obtain ⟨hdecodes, hagain, hcv⟩ := precomputeAddress_decodes lib s address
  cases hresult : (s.precomputeAddress lib address).2 with
  | error error =>
    have heq : s.precomputeAddress lib address =
        ((s.precomputeAddress lib address).1, .error error) := Prod.ext rfl hresult
    have hvirtual : isVirtual address = false := by
      cases hvirtual : isVirtual address with
      | false => rfl
      | true =>
        rw [precomputeAddress_of_virtual hvirtual] at hresult
        cases hresult
    refine .inl ⟨_, ⟨0, error, []⟩, ?_, fun heq => ?_, Decodes.stores hdecodes fun _ _ h => ?_⟩
    · simp only [call, write]
      rw [heq]
    · exact hagain (hresult.trans (congrArg Except.error heq))
    · cases h
      intro hfield
      rw [isVirtual_of_field hfield] at hvirtual
      cases hvirtual
  | ok destination =>
    have hdestination := hcv destination hresult
    obtain ⟨p, hp, hdecodes⟩ := precomputeAddress_ok lib hresult ⟨rfl, rfl⟩
    by_cases hlow : destination ≤ maxCv
    · refine .inr ⟨.doCvWrite, 1, fun u hu => ?_⟩
      obtain ⟨t, ht, hdecodes⟩ := precomputeAddress_ok lib hresult hu
      have hbytes : ∀ byte ∈ addressBytes, ((t.store.setCv (destination + 1)).setValue
          (data.getD 0 0)) byte = t.store byte := by
        intro byte hbyte
        have hlt := (addressBytes_pos hbyte).2
        rw [setValue_of_ne _ _ (by omega), setCv_of_ne _ _ (.inl hlt)]
      refine ⟨{ t with store := (t.store.setCv (destination + 1)).setValue (data.getD 0 0) }, [],
        ?_, .inl rfl, ⟨hdecodes.keeps.withStore _, fun byte hbyte => ?_⟩,
        fun hne byte hbyte => (hbytes byte hbyte).trans (hdecodes.bare hne byte hbyte),
        ?_, fun _ _ h => by cases h⟩
      · simp only [call, write]
        rw [ht]
        simp only
        rw [if_pos hlow]
      · have hstores : Stores lib (.write address data) u t := hdecodes.stores fun _ _ h => by
          cases h
          intro hfield
          have hvirtual := isVirtual_of_field hfield
          rw [if_pos hvirtual] at hdestination
          exact absurd (lt_of_isVirtual hvirtual) (Nat.not_lt.mpr (hdestination ▸ hlow))
        exact (hbytes byte hbyte).trans (hstores.address byte hbyte)
      · rw [← cvOffset_setCv t.store u.store hdestination hlow,
          cv_congr fun byte _ hlt => setValue_of_ne _ _ (by omega)]
    · obtain ⟨hvirtual, rfl⟩ := isVirtual_of_lt hdestination hlow
      by_cases hbounds : destination < minAddress ∨ maxAddress < destination
      · refine .inl ⟨p, ⟨0, some .outOfBounds, []⟩, ?_, by simp, hdecodes.stores fun _ _ h => ?_⟩
        · simp only [call, write]
          rw [hp]
          simp only
          rw [if_neg hlow, if_pos hbounds]
        · cases h
          omega
      by_cases hvalue : destination / 4 * 4 - minAddress = Shadow.valueOffset
      · refine .inr ⟨.doCvWrite, fieldLength destination data.length, fun u hu => ?_⟩
        obtain ⟨t, ht, hdecodes⟩ := precomputeAddress_ok lib hresult hu
        have hlow' : ∀ byte, byte < 8 →
            (t.writeField destination data).store byte = t.store byte := by
          intro byte hlt
          simp only [Shadow.valueOffset] at hvalue
          rw [writeField_store, Shadow.write_of_lt (by omega)]
        refine ⟨t.writeField destination data, [], ?_, .inl rfl,
          stores_field data hvirtual hbounds hdecodes, fun hne byte hbyte => ?_,
          cvOffset_of_virtual (.write destination data) hvirtual
            fun byte hle hlt => (hlow' byte hlt).trans (hdecodes.rest byte hle),
          fun _ _ h => by cases h⟩
        · simp only [call, write]
          rw [ht]
          simp only
          rw [if_neg hlow, if_neg hbounds, fieldWritten, if_pos hvalue]
        · have hlt := (addressBytes_pos hbyte).2
          exact (hlow' byte (by omega)).trans (hdecodes.bare hne byte hbyte)
      · have hbit : destination / 4 * 4 - minAddress ≠ Shadow.bitWriteValueOffset := by
          simp only [minAddress, Shadow.bitWriteValueOffset]
          omega
        obtain ⟨t, ht, hkeeps, hstore⟩ := fieldWritten_cases (p.writeField destination data)
          (fieldLength destination data.length) hvalue hbit
        have hstores := stores_field data hvirtual hbounds hdecodes
        refine .inl ⟨t, ⟨fieldLength destination data.length, none, []⟩, ?_, by simp,
          hstores.keeps.trans hkeeps, hstore ▸ hstores.address⟩
        simp only [call, write]
        rw [hp]
        simp only
        rw [if_neg hlow, if_neg hbounds, ht]

/-! ## The flow -/

/-- What the flow has done when it has terminated: its request is about the CV and the address of
the store, and its result is the result of the request. -/
structure Finishes (lib : DccAddresses Node) (start : CvFlow) (answer : Answer) (s t : CVSpace)
    (request : Option CvRequest) : Prop where
  asyncState : t.asyncState = .done
  asyncError : t.asyncError ≠ .again
  flow : t.flow = none
  same : Same s t
  address : ∀ byte ∈ addressBytes, t.store byte = s.store byte
  cvOffset : ∀ r, request = some r → r.cvOffset = (s.store.cv + (2 ^ 32 - 1)) % 2 ^ 32
  result : ∀ r, request = some r → t.asyncError = .result answer.resultCode
  value : ∀ r, request = some r → start = .doCvRead → t.store.value = answer.value
  target : ∀ r, request = some r → r.cmd.isPom = true →
    (r.addrType, r.dccAddress) = target lib s.store

theorem updateBitsDecomposition_of_lt (store : Shadow) {byte : Nat} (h : byte < 12) :
    store.updateBitsDecomposition byte = store byte := Shadow.write_of_lt h

theorem setValue_value (store : Shadow) (value : UInt8) : (store.setValue value).value = value :=
  store.write_single Shadow.valueOffset value

/-- The part of the flow after the request. -/
def finish (request : Option CvRequest) (answer : Answer) (s : CVSpace) : CVSpace :=
  if request.isSome then s.requestDone answer else s

/-- A flow that sends no request. -/
theorem finishes_unimplemented (start : CvFlow) (answer : Answer) (s : CVSpace) :
    Finishes lib start answer s (s.finishAsyncState .unimplemented) none where
  asyncState := rfl
  asyncError := by simp [finishAsyncState]
  flow := rfl
  same := ⟨rfl, rfl⟩
  address _ _ := rfl
  cvOffset _ h := by cases h
  result _ h := by cases h
  value _ h := by cases h
  target _ h := by cases h

/-- A flow that waits for the result of a write. -/
theorem finishes_write {answer : Answer} {r : CvRequest} (hflow : t.flow = some .cvWriteDone)
    (hsame : Same s t) (hstore : ∀ byte ∈ addressBytes, t.store byte = s.store byte)
    (hcv : r.cvOffset = (s.store.cv + (2 ^ 32 - 1)) % 2 ^ 32)
    (htarget : r.cmd.isPom = true → (r.addrType, r.dccAddress) = target lib s.store) :
    Finishes lib .doCvWrite answer s (t.requestDone answer) (some r) := by
  have heq : t.requestDone answer = t.finishAsyncState (.result answer.resultCode) := by
    rw [requestDone, hflow]
  rw [heq]
  refine ⟨rfl, by simp [finishAsyncState], rfl, ⟨hsame.isMainNode, hsame.enableServiceMode⟩,
    hstore, fun r' h => ?_, fun r' h => rfl, fun _ _ h => (by cases h), fun r' h hpom => ?_⟩
  · cases h
    exact hcv
  · cases h
    exact htarget hpom

/-- A flow that waits for a value. -/
theorem finishes_read {start : CvFlow} {answer : Answer} {r : CvRequest}
    (hflow : t.flow = some .cvReadDone) (hsame : Same s t)
    (hstore : ∀ byte ∈ addressBytes, t.store byte = s.store byte)
    (hcv : r.cvOffset = (s.store.cv + (2 ^ 32 - 1)) % 2 ^ 32)
    (htarget : r.cmd.isPom = true → (r.addrType, r.dccAddress) = target lib s.store) :
    Finishes lib start answer s (t.requestDone answer) (some r) := by
  have heq : t.requestDone answer = CVSpace.finishAsyncState
      { t with store := (t.store.setValue answer.value).updateBitsDecomposition }
      (.result answer.resultCode) := by
    rw [requestDone, hflow]
  rw [heq]
  refine ⟨rfl, by simp [finishAsyncState], rfl, ⟨hsame.isMainNode, hsame.enableServiceMode⟩,
    fun byte hbyte => ?_, fun r' h => ?_, fun r' h => rfl, fun r' h _ => ?_, fun r' h hpom => ?_⟩
  · have hlt := (addressBytes_pos hbyte).2
    show (t.store.setValue answer.value).updateBitsDecomposition byte = _
    rw [updateBitsDecomposition_of_lt _ (by omega), setValue_of_ne _ _ (by omega),
      hstore byte hbyte]
  · cases h
    exact hcv
  · show (t.store.setValue answer.value).updateBitsDecomposition.value = _
    rw [Shadow.value, updateBitsDecomposition_of_lt _ (by decide)]
    exact setValue_value _ _
  · cases h
    exact htarget hpom

section Requests

variable (lib : DccAddresses Node) (s : CVSpace) (cmd : RequestType) (value : UInt8) (bit : Nat)

theorem request_cvOffset :
    (s.request cmd value bit).cvOffset = (s.store.cv + (2 ^ 32 - 1)) % 2 ^ 32 := by
  rw [request]

theorem pomRequest_cvOffset :
    (s.pomRequest lib cmd value bit).cvOffset = (s.store.cv + (2 ^ 32 - 1)) % 2 ^ 32 := by
  rw [pomRequest, request]

theorem pomRequest_target : ((s.pomRequest lib cmd value bit).addrType,
    (s.pomRequest lib cmd value bit).dccAddress) = target lib s.store := by
  rw [pomRequest, target]

end Requests

theorem finish_some (r : CvRequest) (answer : Answer) (s : CVSpace) :
    finish (some r) answer s = s.requestDone answer := by
  rw [finish, if_pos Option.isSome_some]

theorem finishes_doCvWrite (lib : DccAddresses Node) (answer : Answer) (s : CVSpace) :
    Finishes lib .doCvWrite answer s (finish (s.doCvWrite lib).2 answer (s.doCvWrite lib).1)
      (s.doCvWrite lib).2 := by
  have hdecomposed : ∀ byte ∈ addressBytes,
      s.store.updateBitsDecomposition byte = s.store byte := by
    intro byte hbyte
    have hlt := (addressBytes_pos hbyte).2
    exact updateBitsDecomposition_of_lt _ (by omega)
  unfold doCvWrite
  dsimp only
  split
  · split
    · rw [finish_some]
      exact finishes_write rfl ⟨rfl, rfl⟩ (fun _ _ => rfl) (request_cvOffset ..)
        fun h => by cases h
    · rw [finish_some]
      exact finishes_write rfl ⟨rfl, rfl⟩ hdecomposed (request_cvOffset ..) fun h => by cases h
  · split
    · rw [finish_some]
      exact finishes_write rfl ⟨rfl, rfl⟩ hdecomposed (request_cvOffset ..) fun h => by cases h
    · split
      · split
        · rw [finish_some]
          exact finishes_write rfl ⟨rfl, rfl⟩ (fun _ _ => rfl) (pomRequest_cvOffset ..)
            fun _ => pomRequest_target ..
        · rw [finish_some]
          exact finishes_read rfl ⟨rfl, rfl⟩ hdecomposed (pomRequest_cvOffset ..)
            fun _ => pomRequest_target ..
      · exact finishes_unimplemented .doCvWrite answer s

theorem finishes_doCvRead (lib : DccAddresses Node) (answer : Answer) (s : CVSpace) :
    Finishes lib .doCvRead answer s (finish (s.doCvRead lib).2 answer (s.doCvRead lib).1)
      (s.doCvRead lib).2 := by
  unfold doCvRead
  split
  · rw [finish_some]
    exact finishes_read rfl ⟨rfl, rfl⟩ (fun _ _ => rfl) (request_cvOffset ..) fun h => by cases h
  · split
    · rw [finish_some]
      exact finishes_read rfl ⟨rfl, rfl⟩ (fun _ _ => rfl) (pomRequest_cvOffset ..)
        fun _ => pomRequest_target ..
    · exact finishes_unimplemented .doCvRead answer s

/-- The flow from its start. -/
theorem finishes_runFlow {start : CvFlow} (hflow : s.flow = some start)
    (hentry : start = .doCvWrite ∨ start = .doCvRead) (answer : Answer) :
    Finishes lib start answer s (finish (s.runFlow lib).2 answer (s.runFlow lib).1)
      (s.runFlow lib).2 := by
  rcases hentry with rfl | rfl
  · have heq : s.runFlow lib = s.doCvWrite lib := by rw [runFlow, hflow]
    rw [heq]
    exact finishes_doCvWrite lib answer s
  · have heq : s.runFlow lib = s.doCvRead lib := by rw [runFlow, hflow]
    rw [heq]
    exact finishes_doCvRead lib answer s

/-! ## The node of an access -/

/-- What `set_node` does to the store. -/
def storeNode (lib : DccAddresses Node) (node : SpaceNode Node) (store : Shadow) : Shadow :=
  match node with
  | .main => store
  | .other node =>
    match lib.legacyAddress node with
    | some (addressType, address) => (store.setAddressType addressType).setDccAddress address
    | none => store

/-- No flow runs, and no result waits. -/
structure Ready (s : CVSpace) : Prop where
  asyncState : s.asyncState = .idle
  flow : s.flow = none

/-- `set_node` of a train node has an address for the DCC track, or returns false. -/
theorem setNode_other (lib : DccAddresses Node) (s : CVSpace) (node : Node) :
    (∃ addressType address, lib.legacyAddress node = some (addressType, address) ∧
      (addressType = dccShortAddress ∨ addressType = dccLongAddress) ∧
      s.setNode lib (.other node) = (true, { s with
        isMainNode := false
        store := (s.store.setAddressType addressType).setDccAddress address })) ∨
    (∀ u : CVSpace, u.setNode lib (.other node) = (false, { u with isMainNode := false })) := by
  cases hnode : lib.legacyAddress node with
  | none =>
    right
    intro u
    simp only [setNode, hnode]
  | some legacy =>
    obtain ⟨addressType, address⟩ := legacy
    by_cases htype : addressType = dccShortAddress ∨ addressType = dccLongAddress
    · left
      refine ⟨addressType, address, rfl, htype, ?_⟩
      simp only [setNode, hnode]
      rw [if_pos htype]
    · right
      intro u
      simp only [setNode, hnode]
      rw [if_neg htype]

theorem setNode_store {node : SpaceNode Node} (h : (s.setNode lib node).1 = true) :
    (s.setNode lib node).2.store = storeNode lib node s.store := by
  cases node with
  | main => rfl
  | other node =>
    rcases setNode_other lib s node with ⟨addressType, address, hnode, -, heq⟩ | hfalse
    · simp only [heq, storeNode, hnode]
    · rw [hfalse] at h
      cases h

/-- `set_node` does not touch the asynchronous state. -/
theorem setNode_keeps (lib : DccAddresses Node) (s : CVSpace) (node : SpaceNode Node) :
    (s.setNode lib node).2.asyncState = s.asyncState ∧
      (s.setNode lib node).2.asyncError = s.asyncError ∧
      (s.setNode lib node).2.flow = s.flow ∧
      (s.setNode lib node).2.enableServiceMode = s.enableServiceMode := by
  cases node with
  | main => exact ⟨rfl, rfl, rfl, rfl⟩
  | other node =>
    rcases setNode_other lib s node with ⟨addressType, address, -, -, heq⟩ | hfalse
    · rw [heq]
      exact ⟨rfl, rfl, rfl, rfl⟩
    · rw [hfalse]
      exact ⟨rfl, rfl, rfl, rfl⟩

/-- What `set_node` returns, and whether it is the main node, depends on the node. -/
theorem setNode_same (lib : DccAddresses Node) (s u : CVSpace) (node : SpaceNode Node) :
    (u.setNode lib node).1 = (s.setNode lib node).1 ∧
      (u.setNode lib node).2.isMainNode = (s.setNode lib node).2.isMainNode := by
  cases node with
  | main => exact ⟨rfl, rfl⟩
  | other node =>
    rcases setNode_other lib s node with ⟨addressType, address, hnode, htype, heq⟩ | hfalse
    · rcases setNode_other lib u node with ⟨_, _, _, _, heq'⟩ | hfalse
      · rw [heq, heq']
        exact ⟨rfl, rfl⟩
      · rw [hfalse s] at heq
        cases heq
    · rw [hfalse s, hfalse u]
      exact ⟨rfl, rfl⟩

theorem storeNode_of_le (lib : DccAddresses Node) (node : SpaceNode Node) (store : Shadow)
    {byte : Nat} (h : 4 ≤ byte) : storeNode lib node store byte = store byte := by
  cases node with
  | main => rfl
  | other node =>
    cases hnode : lib.legacyAddress node with
    | none => simp only [storeNode, hnode]
    | some legacy =>
      simp only [storeNode, hnode]
      rw [setDccAddress_of_lt _ _ (.inr h), setAddressType_of_ne _ _ (by omega)]

/-! ## The address that an operation stores -/

/-- What an operation stores depends on the operation. -/
theorem storeAddress_of_stores {operation : Operation} {byte : Nat} (hbyte : byte ∈ addressBytes)
    (h : operation.stores lib byte = true) (store store' : Shadow) :
    operation.storeAddress lib store byte = operation.storeAddress lib store' byte := by
  cases hdecoded : decodedAddress lib operation.address with
  | some decoded =>
    obtain ⟨addressType, address⟩ := decoded
    simp only [Operation.storeAddress, hdecoded]
    exact setAddress_congr addressType address.toNat store store' hbyte
  | none =>
    cases operation with
    | read address n => simp [Operation.stores, hdecoded] at h
    | write address data =>
      simp only [Operation.stores, hdecoded, Option.isSome_none, Bool.false_or,
        decide_eq_true_eq] at h
      obtain ⟨hmin, hmax, hle, hlt⟩ := h
      have hnone : decodedAddress lib address = none := hdecoded
      rw [storeAddress_field hnone ⟨hmin, hmax⟩, storeAddress_field hnone ⟨hmin, hmax⟩,
        Shadow.write_of_mem hle hlt, Shadow.write_of_mem hle hlt]

/-- The other bytes stay. -/
theorem storeAddress_of_not_stores {operation : Operation} {byte : Nat}
    (h : operation.stores lib byte = false) (store : Shadow) :
    operation.storeAddress lib store byte = store byte := by
  cases hdecoded : decodedAddress lib operation.address with
  | some decoded => simp [Operation.stores, hdecoded] at h
  | none =>
    cases operation with
    | read address n => simp only [Operation.storeAddress, hdecoded]
    | write address data =>
      simp only [Operation.stores, hdecoded, Option.isSome_none, Bool.false_or,
        decide_eq_false_iff_not] at h
      by_cases hbounds : minAddress ≤ address ∧ address ≤ maxAddress
      · have hnone : decodedAddress lib address = none := hdecoded
        rw [storeAddress_field hnone hbounds, Shadow.write, if_neg]
        exact fun hmem => h ⟨hbounds.1, hbounds.2, hmem⟩
      · simp only [Operation.storeAddress, hdecoded]
        rw [if_neg hbounds]

/-- The second call of an access stores what the first one has stored. -/
theorem storeAddress_again {operation : Operation} {store store' : Shadow} {byte : Nat}
    (hbyte : byte ∈ addressBytes) (h : store' byte = operation.storeAddress lib store byte) :
    operation.storeAddress lib store' byte = operation.storeAddress lib store byte := by
  cases hstores : operation.stores lib byte with
  | true => exact storeAddress_of_stores hbyte hstores store' store
  | false => rw [storeAddress_of_not_stores hstores, h]

theorem target_congr {store store' : Shadow}
    (h : ∀ byte ∈ addressBytes, store byte = store' byte) :
    target lib store = target lib store' := by
  have htype : store.addressType = store'.addressType := h 1 (by decide)
  have haddress : store.dccAddress = store'.dccAddress := by
    rw [Shadow.dccAddress, Shadow.dccAddress, Shadow.be16, Shadow.be16,
      h Shadow.dccAddressOffset (by decide), h (Shadow.dccAddressOffset + 1) (by decide)]
  rw [target, target, htype, haddress]

/-! ## An access -/

/-- A call returns at once, or comes as far as the flow. -/
theorem call_cases (lib : DccAddresses Node) (s : CVSpace) (operation : Operation) :
    (∃ t reply, s.call lib operation = some (t, reply) ∧ reply.error ≠ some .again ∧
      Stores lib operation s t) ∨
    ∃ start len, ∀ u, Same s u → ∃ t data, Starts lib operation u start len t data := by
  cases operation with
  | read address n => exact read_cases lib s address n
  | write address data => exact write_cases lib s address data

/-- How an access has ended. -/
structure Completes (lib : DccAddresses Node) (a : Access Node) (s t : CVSpace) (c : Completion) :
    Prop where
  ready : Ready t
  error : c.reply.error ≠ some .again
  stored : a.node = .main →
    ∀ byte ∈ addressBytes, t.store byte = a.operation.storeAddress lib s.store byte
  cvOffset : ∀ r, c.request = some r → r.cvOffset = a.operation.cvOffset s.store
  result : ∀ r, c.request = some r → c.reply.error = some (.result a.answer.resultCode)
  value : ∀ r address n, c.request = some r → a.operation = .read address n →
    c.reply.data = [a.answer.value]
  target : ∀ r, c.request = some r → r.cmd.isPom = true → a.operation.address / 2 ^ 24 ≠ 4 →
    (r.addrType, r.dccAddress) = target lib (storeNode lib a.node s.store)

/-- An access of which the first call returns at once. -/
theorem completes_of_call {a : Access Node} {reply : SpaceReply} (hready : Ready s)
    (hnode : (s.setNode lib a.node).1 = true) (hagain : reply.error ≠ some .again)
    (hstores : Stores lib a.operation (s.setNode lib a.node).2 t) :
    Completes lib a s t ⟨none, reply⟩ := by
  obtain ⟨hstate, -, hflow, -⟩ := setNode_keeps lib s a.node
  refine ⟨⟨?_, ?_⟩, hagain, fun hmain byte hbyte => ?_, fun _ h => (by cases h),
    fun _ h => (by cases h), fun _ _ _ h => (by cases h), fun _ h => (by cases h)⟩
  · rw [hstores.keeps.asyncState, hstate, hready.asyncState]
  · rw [hstores.keeps.flow, hflow, hready.flow]
  · rw [hstores.address byte hbyte, setNode_store hnode, hmain]
    rfl

theorem evalAsyncState_start (h : Ready s) (start : CvFlow) (len : Nat) (data : List UInt8) :
    s.evalAsyncState start len data = some ({ s with
      flow := some start, asyncState := .pending, asyncError := .result .ok },
      ⟨0, some .again, data⟩) := by
  rw [evalAsyncState, if_neg (by simp [h.asyncState]), if_pos ⟨h.asyncState, h.flow⟩]

theorem evalAsyncState_done (h : s.asyncState = .done) (start : CvFlow) (len : Nat)
    (data : List UInt8) : s.evalAsyncState start len data =
      some ({ s with asyncState := .idle }, ⟨len, some s.asyncError, data⟩) := by
  rw [evalAsyncState, if_pos h]

theorem access_of_call {a : Access Node} {reply : SpaceReply}
    (hnode : (s.setNode lib a.node).1 = true)
    (hcall : (s.setNode lib a.node).2.call lib a.operation = some (t, reply))
    (hagain : reply.error ≠ some .again) : s.access lib a = some (t, ⟨none, reply⟩) := by
  simp only [access, callOn, if_pos hnode, hcall]
  exact if_neg hagain

/-- An access that is made twice. -/
theorem access_of_again {a : Access Node} {reply reply' : SpaceReply}
    (hnode : (s.setNode lib a.node).1 = true)
    (hcall : (s.setNode lib a.node).2.call lib a.operation = some (t, reply))
    (hagain : reply.error = some .again)
    (hcall' : ((finish (t.runFlow lib).2 a.answer (t.runFlow lib).1).setNode lib a.node).2.call lib
      a.operation = some (u, reply')) :
    s.access lib a = some (u, ⟨(t.runFlow lib).2, reply'⟩) := by
  have hnode' := (setNode_same lib s (finish (t.runFlow lib).2 a.answer (t.runFlow lib).1)
    a.node).1.trans hnode
  have hagainCall : (finish (t.runFlow lib).2 a.answer (t.runFlow lib).1).callOn lib a.node
      a.operation = some (u, reply') := by
    rw [callOn, if_pos hnode', hcall']
  simp only [access, callOn, if_pos hnode, hcall]
  refine (if_pos hagain).trans ?_
  show ((finish (t.runFlow lib).2 a.answer (t.runFlow lib).1).callOn lib a.node
    a.operation).bind _ = _
  rw [hagainCall]
  rfl

/-- Every access of a node that `set_node` takes completes. -/
theorem access_completes {a : Access Node} (hready : Ready s)
    (hnode : (s.setNode lib a.node).1 = true) :
    ∃ t c, s.access lib a = some (t, c) ∧ Completes lib a s t c := by
  rcases call_cases lib (s.setNode lib a.node).2 a.operation with
    ⟨t, reply, hcall, hagain, hstores⟩ | ⟨start, len, hstarts⟩
  · exact ⟨t, ⟨none, reply⟩, access_of_call hnode hcall hagain,
      completes_of_call hready hnode hagain hstores⟩
  obtain ⟨hstate, -, hflow, henable⟩ := setNode_keeps lib s a.node
  obtain ⟨p, data, hp⟩ := hstarts _ ⟨rfl, rfl⟩
  have hready' : Ready p :=
    ⟨(hp.stores.keeps.asyncState.trans hstate).trans hready.asyncState,
      (hp.stores.keeps.flow.trans hflow).trans hready.flow⟩
  have hcall := hp.call.trans (evalAsyncState_start hready' start len data)
  -- The flow runs between the two calls.
  generalize hr : ({ p with
    flow := some start, asyncState := .pending, asyncError := .result .ok } : CVSpace) = r at hcall
  have hrstore : r.store = p.store := by rw [← hr]
  have hfinishes : Finishes lib start a.answer r
      (finish (r.runFlow lib).2 a.answer (r.runFlow lib).1) (r.runFlow lib).2 :=
    finishes_runFlow (by rw [← hr]) hp.entry a.answer
  generalize hf : finish (r.runFlow lib).2 a.answer (r.runFlow lib).1 = f at hfinishes
  obtain ⟨hstate', herror', hflow', henable'⟩ := setNode_keeps lib f a.node
  have hsame : Same (s.setNode lib a.node).2 (f.setNode lib a.node).2 := by
    refine ⟨(setNode_same lib s f a.node).2, ?_⟩
    rw [henable', hfinishes.same.enableServiceMode, ← hp.stores.keeps.enableServiceMode, ← hr]
  obtain ⟨q, data', hq⟩ := hstarts _ hsame
  have hdone : q.asyncState = .done :=
    (hq.stores.keeps.asyncState.trans hstate').trans hfinishes.asyncState
  have herror : q.asyncError = f.asyncError := hq.stores.keeps.asyncError.trans herror'
  have hcall' := hq.call.trans (evalAsyncState_done hdone start len data')
  rw [← hf] at hcall'
  refine ⟨_, _, access_of_again hnode hcall rfl hcall', ?_⟩
  have hstore := setNode_store hnode
  have hstore' := setNode_store ((setNode_same lib s f a.node).1.trans hnode)
  refine ⟨⟨rfl, ?_⟩, ?_, fun hmain byte hbyte => ?_, fun request hrequest => ?_,
    fun request hrequest => ?_, fun request address n hrequest hread => ?_,
    fun request hrequest hpom hbare => ?_⟩
  · exact (hq.stores.keeps.flow.trans hflow').trans hfinishes.flow
  · rw [herror]
    exact fun heq => hfinishes.asyncError (Option.some.inj heq)
  · have hfirst : f.store byte = a.operation.storeAddress lib s.store byte := by
      rw [hfinishes.address byte hbyte, hrstore, hp.stores.address byte hbyte, hstore, hmain]
      rfl
    have hsecond : q.store byte = a.operation.storeAddress lib f.store byte := by
      rw [hq.stores.address byte hbyte, hstore', hmain]
      rfl
    exact hsecond.trans (storeAddress_again hbyte hfirst)
  · rw [hfinishes.cvOffset request hrequest, hrstore, hp.cvOffset, hstore]
    exact cvOffset_congr fun byte hle => storeNode_of_le lib a.node s.store hle
  · rw [herror, hfinishes.result request hrequest]
  · have hdata := (hq.read address n hread).2
    have hvalue : (f.setNode lib a.node).2.store.value = f.store.value := by
      rw [hstore']
      exact storeNode_of_le lib a.node f.store (by decide)
    rw [hdata, hvalue, hfinishes.value request hrequest (hp.read address n hread).1]
  · rw [hfinishes.target request hrequest hpom, hrstore, ← hstore]
    exact target_congr (hp.bare hbare)

/-! ## Sequences of accesses -/

/-- Where no train node came in between, the store has what the main node stored. -/
structure Invariant (lib : DccAddresses Node) (history : List (Access Node)) (s : CVSpace) :
    Prop where
  ready : Ready s
  stored : ∀ byte ∈ addressBytes, undisturbed lib history byte = true →
    s.store byte = storedByMain lib history byte

theorem Invariant.initial (h : s.Initial) : Invariant lib [] s where
  ready := ⟨h.asyncState, h.flow⟩
  stored byte _ _ := by rw [h.store, storedByMain, List.foldl_nil]

/-- An access that is made in a state without flow completes. -/
theorem completes_of_step {a : Access Node} (hready : Ready s)
    (hstep : CVSpace.step lib s a = some t) : ∃ c, Completes lib a s t c := by
  obtain ⟨⟨t', c⟩, haccess, rfl⟩ := Option.map_eq_some_iff.mp hstep
  have hnode : (s.setNode lib a.node).1 = true := by
    by_contra hnode
    simp [access, callOn, if_neg hnode] at haccess
  obtain ⟨t'', c', haccess', hcompletes⟩ := access_completes hready hnode
  rw [haccess] at haccess'
  cases haccess'
  exact ⟨c, hcompletes⟩

theorem storedByMain_main {history : List (Access Node)} {a : Access Node}
    (h : a.node = .main) : storedByMain lib (history ++ [a]) =
      a.operation.storeAddress lib (storedByMain lib history) := by
  rw [storedByMain, List.foldl_append, List.foldl_cons, List.foldl_nil, h]
  rfl

theorem undisturbed_main {history : List (Access Node)} {a : Access Node} (h : a.node = .main)
    (byte : Nat) : undisturbed lib (history ++ [a]) byte =
      (undisturbed lib history byte || a.operation.stores lib byte) := by
  rw [undisturbed, List.foldl_append, List.foldl_cons, List.foldl_nil, h]
  rfl

theorem undisturbed_other {history : List (Access Node)} {a : Access Node} {node : Node}
    (h : a.node = .other node) (byte : Nat) : undisturbed lib (history ++ [a]) byte = false := by
  rw [undisturbed, List.foldl_append, List.foldl_cons, List.foldl_nil, h]

theorem Invariant.step {history : List (Access Node)} {a : Access Node}
    (h : Invariant lib history s) (hstep : CVSpace.step lib s a = some t) :
    Invariant lib (history ++ [a]) t := by
  obtain ⟨c, hcompletes⟩ := completes_of_step h.ready hstep
  refine ⟨hcompletes.ready, fun byte hbyte hclean => ?_⟩
  cases hnode : a.node with
  | other node =>
    rw [undisturbed_other hnode] at hclean
    cases hclean
  | main =>
    rw [undisturbed_main hnode] at hclean
    rw [storedByMain_main hnode, hcompletes.stored hnode byte hbyte]
    -- Either this access has stored the byte, or none has disturbed it before.
    cases hstores : a.operation.stores lib byte with
    | true => exact storeAddress_of_stores hbyte hstores _ _
    | false =>
      rw [hstores, Bool.or_false] at hclean
      rw [storeAddress_of_not_stores hstores, storeAddress_of_not_stores hstores,
        h.stored byte hbyte hclean]

theorem Invariant.of_run {history : List (Access Node)} (hinit : s.Initial)
    (hrun : Trace.run (CVSpace.step lib) s history = some t) : Invariant lib history t :=
  Trace.invariant_of_step (.initial hinit) (fun _ _ _ _ h hstep => h.step hstep) hrun

/-- The address of a train node that `set_node` takes. -/
theorem target_other {node : Node} (hlib : ∀ addressType n,
      lib.legacyAddress node = some (addressType, n) → n < 2 ^ 16)
    (hnode : (s.setNode lib (.other node)).1 = true) (store : Shadow) :
    lib.legacyAddress node = some ((target lib (storeNode lib (.other node) store)).1,
      (target lib (storeNode lib (.other node) store)).2.toNat) := by
  rcases setNode_other lib s node with ⟨addressType, n, hlegacy, htype, -⟩ | hfalse
  · have hstore : storeNode lib (.other node) store =
        (store.setAddressType addressType).setDccAddress n := by
      simp only [storeNode, hlegacy]
    have haddressType : (storeNode lib (.other node) store).addressType = addressType := by
      rw [hstore, Shadow.addressType, setDccAddress_of_lt _ _ (.inl (by decide))]
      exact Shadow.write_single _ _ _
    have haddress : (storeNode lib (.other node) store).dccAddress = UInt16.ofNat n := by
      rw [hstore]
      exact Shadow.be16_write n
    have haccessory : isAccessory addressType = false := by
      rcases htype with rfl | rfl <;> rfl
    rw [target, haddressType, haccessory, if_neg (by simp), haddress, hlegacy,
      UInt16.toNat_ofNat', Nat.mod_eq_of_lt (hlib addressType n hlegacy)]
  · rw [hfalse] at hnode
    cases hnode

/-- The decoder that an access is meant for, where the address has no prefix with another one: the
train, or on the main node the one that the main node has stored. -/
def Intended (lib : DccAddresses Node) (history : List (Access Node)) (node : SpaceNode Node)
    (r : CvRequest) : Prop :=
  match node with
  | .main => (r.addrType, r.dccAddress) = target lib (storedByMain lib history)
  | .other node => lib.legacyAddress node = some (r.addrType, r.dccAddress.toNat)

/-- Node IDs of DCC trains; the prefix with an address is not used here. -/
def dccNodes : DccAddresses Nat where
  legacyAddress node :=
    if node / 2 ^ 32 = 0x0601 then
      let address := node % 2 ^ 16
      if 0xC000 ≤ address ∨ 127 < address then some (dccLongAddress, address % 2 ^ 14)
      else some (dccShortAddress, address)
    else none
  decodeAddressPartition _ := none
  accyAddressBinaryToUser address := address
  accyAddressUserToBinary address := address

/-- After the constructor. -/
def atStart : CVSpace where
  store := Shadow.initial
  asyncState := .idle
  asyncError := .result .ok
  flow := none
  isMainNode := false
  bitOperation := false
  bitNum := 0
  enableServiceMode := true
  repeatVerify := 3
  repeatVerifyCooldown := 5

theorem atStart_initial : atStart.Initial := ⟨rfl, rfl, rfl⟩

/-- The main node stores the short address 3. -/
def storeThree : Access Nat := ⟨.main, .write 0x7F100001 [1, 0, 3], ⟨.ok, 0⟩⟩

/-- The train with the address 42 reads its CV 1. -/
def readTrain : Access Nat := ⟨.other 0x06010000002A, .read 0 1, ⟨.ok, 42⟩⟩

/-- The main node reads CV 8 on the main track. -/
def readMain : Access Nat := ⟨.main, .read 0x02000007 1, ⟨.ok, 13⟩⟩

theorem dccNodes_lt (node : Nat) (addressType : UInt8) (n : Nat)
    (h : dccNodes.legacyAddress node = some (addressType, n)) : n < 2 ^ 16 := by
  simp only [dccNodes] at h
  split at h
  · split at h
    · cases h
      omega
    · cases h
      omega
  · cases h

end OpenmrnCue.CommandStation.CVSpace
