import OpenmrnCue.Custom.MCPCanFrameFormat

/-! `HostClientHandler` of `HostProtocol.cxx`: the datagrams by which a host talks to the boards.
An access outside of the payload, or outside of the data of a frame, stops the handler with a
`Fault`, whatever the memory there holds. -/

namespace OpenmrnCue.Custom

open Buffer

/-! The values of `HostProtocolDefs` and `usb_proto.h`. -/

def clientDatagramId : UInt8 := 0xF1
def serverDatagramId : UInt8 := 0xF2
def cmdSync : UInt8 := 14
def cmdPing : UInt8 := 0x13
def cmdPong : UInt8 := 0x14
def cmdCanPkt : UInt8 := 0x1a

/-- The errors with which the handler rejects a datagram. -/
inductive DatagramError where
  | invalidArgsMessageTooShort
  | unimplementedSubcmd
deriving DecidableEq, Repr

/-- What the handler does to others: it wakes up the one who waits for the address of the host,
sends a frame to the hub, and responds to the datagram.  `pending` is `REPLY_PENDING`. -/
inductive HostEffect (W : Type) where
  | notify (waiting : Nat)
  | send (frame : CanFrame W)
  | respondOk (pending : Bool)
  | respondReject (error : DatagramError)

/-- The address of the host, with the one who waits for it, and the response of the handler.
`Handle` is the type of node handles. -/
structure HostClientHandler (Handle : Type) where
  hostAddress : Handle
  hostAddressNn : Option Nat
  responsePayload : List UInt8

section

variable {W Handle : Type} (acc : FrameAccessors W) (zero : W) {n : Nat}

/-- `translate_inbound_can`.  The frame is all zero before it is filled. -/
def translateInboundCan (handler : HostClientHandler Handle) (payload : Vector UInt8 n) :
    Except Fault (HostClientHandler Handle × List (HostEffect W)) := do
  let frame := { canId := zero, canDlc := 0, data := Vector.replicate 8 0 }
  let frame ← mcpToFrame acc payload 2 frame
  return (handler, [.send frame, .respondOk false])

/-- `HostClientHandler::entry`, for a datagram from `src`. -/
def HostClientHandler.entry (handler : HostClientHandler Handle) (src : Handle)
    (payload : Vector UInt8 n) :
    Except Fault (HostClientHandler Handle × List (HostEffect W)) :=
  if n < 2 then
    return (handler, [.respondReject .invalidArgsMessageTooShort])
  else do
    let handler := { handler with responsePayload := [] }
    let cmd ← read payload 1
    if cmd = cmdPing then
      let value ← read payload 2
      return ({ handler with responsePayload := [serverDatagramId, cmdPong, value + 1] },
        [.respondOk true])
    else if cmd = cmdSync then
      return ({ handler with hostAddress := src, hostAddressNn := none },
        handler.hostAddressNn.toList.map .notify ++ [.respondOk false])
    else if cmd = cmdCanPkt then
      translateInboundCan acc zero handler payload
    else
      return (handler, [.respondReject .unimplementedSubcmd])

end

/-- The payload ends before what its command needs: the command itself, the value of a ping, or
the packet with its length byte and as many bytes after it as that byte says. -/
def TooShort {n : Nat} (payload : Vector UInt8 n) : Prop :=
  n < 2 ∨ (payload[1]? = some cmdPing ∧ n < 3) ∨
    (payload[1]? = some cmdCanPkt ∧ (n < 7 ∨ ∃ len, payload[6]? = some len ∧ n < 7 + len.toNat))

/-- The handler stays inside of the payload and of the frame, the frames that it sends have at most
eight bytes, and of a payload that is too short there is no effect but a rejection. -/
def ParsedInBounds {W Handle : Type} (acc : FrameAccessors W) (zero : W)
    (handler : HostClientHandler Handle) (src : Handle) {n : Nat} (payload : Vector UInt8 n) :
    Prop :=
  ∃ result, handler.entry acc zero src payload = .ok result ∧
    (∀ frame, .send frame ∈ result.2 → frame.canDlc.toNat ≤ 8) ∧
    (TooShort payload → ∃ error, result = (handler, [.respondReject error]))

/-- A ping carries its value, and a packet its length byte, at most eight, and its data. -/
def PayloadComplete {n : Nat} (payload : Vector UInt8 n) : Prop :=
  (payload[1]? = some cmdPing → 3 ≤ n) ∧
    (payload[1]? = some cmdCanPkt →
      ∃ len, payload[6]? = some len ∧ len.toNat ≤ 8 ∧ 7 + len.toNat ≤ n)

section

variable {W Handle : Type} {acc : FrameAccessors W} {zero : W} {n : Nat}
variable {handler : HostClientHandler Handle} {src : Handle} {payload : Vector UInt8 n}

theorem mcpToFrame_canDlc {start : Nat} {frame frame' : CanFrame W}
    (h : mcpToFrame acc payload start frame = .ok frame') :
    payload[start + 4]? = some frame'.canDlc := by
  have hlt := mcpToFrame_of_ok h
  rw [mcpToFrame_of_lt hlt] at h
  obtain ⟨data, -, h⟩ := Except.bind_eq_ok.mp h
  cases h
  exact Vector.getElem?_eq_getElem hlt

/-- A packet is translated just when it is complete. -/
theorem exists_translateInboundCan :
    (∃ result, translateInboundCan acc zero handler payload = .ok result) ↔
      ∃ len, payload[6]? = some len ∧ len.toNat ≤ 8 ∧ 7 + len.toNat ≤ n := by
  constructor
  · rintro ⟨result, h⟩
    obtain ⟨frame, hframe, -⟩ := Except.bind_eq_ok.mp h
    obtain ⟨len, hlen, hfit, h8⟩ := exists_mcpToFrame.mp ⟨frame, hframe⟩
    exact ⟨len, hlen, h8, by omega⟩
  · rintro ⟨len, hlen, h8, hfit⟩
    have hframe : ∃ frame, mcpToFrame acc payload 2
        { canId := zero, canDlc := 0, data := Vector.replicate 8 0 } = .ok frame :=
      exists_mcpToFrame.mpr ⟨len, hlen, by omega, h8⟩
    obtain ⟨frame, hframe⟩ := hframe
    exact ⟨_, by rw [translateInboundCan, hframe]; rfl⟩

theorem translateInboundCan_sent {result : HostClientHandler Handle × List (HostEffect W)}
    (h : translateInboundCan acc zero handler payload = .ok result) {frame : CanFrame W}
    (hsent : .send frame ∈ result.2) : payload[6]? = some frame.canDlc := by
  obtain ⟨frame', hframe, h⟩ := Except.bind_eq_ok.mp h
  cases h
  simp only [List.mem_cons, HostEffect.send.injEq, reduceCtorEq, List.not_mem_nil,
    or_false] at hsent
  subst hsent
  exact mcpToFrame_canDlc hframe

/-! Each command of `entry`. -/

theorem entry_short (h : n < 2) : handler.entry acc zero src payload =
    .ok (handler, [.respondReject .invalidArgsMessageTooShort]) := if_pos h

theorem entry_ping (h : 2 ≤ n) (hcmd : payload[1]? = some cmdPing) :
    handler.entry acc zero src payload = (do
      let value ← read payload 2
      pure ({ handler with responsePayload := [serverDatagramId, cmdPong, value + 1] },
        [.respondOk true])) := by
  obtain ⟨hlt, hcmd⟩ := Vector.getElem?_eq_some_iff.mp hcmd
  rw [HostClientHandler.entry, if_neg (by omega), read_of_lt hlt, hcmd]
  rfl

theorem entry_canPkt (h : 2 ≤ n) (hcmd : payload[1]? = some cmdCanPkt) :
    handler.entry acc zero src payload =
      translateInboundCan acc zero { handler with responsePayload := [] } payload := by
  obtain ⟨hlt, hcmd⟩ := Vector.getElem?_eq_some_iff.mp hcmd
  rw [HostClientHandler.entry, if_neg (by omega), read_of_lt hlt, hcmd]
  rfl

/-- The other commands read nothing else, and send nothing to the hub. -/
theorem entry_other (h : 2 ≤ n) (hping : payload[1]? ≠ some cmdPing)
    (hpkt : payload[1]? ≠ some cmdCanPkt) :
    ∃ result, handler.entry acc zero src payload = .ok result ∧
      ∀ frame, .send frame ∉ result.2 := by
  have hlt : 1 < n := by omega
  rw [Vector.getElem?_eq_getElem hlt, Ne, Option.some.injEq] at hping hpkt
  rw [HostClientHandler.entry, if_neg (by omega), read_of_lt hlt]
  simp only [Except.ok_bind, if_neg hping, if_neg hpkt]
  by_cases hsync : payload[1] = cmdSync
  · rw [if_pos hsync]
    refine ⟨_, rfl, fun frame hsent => ?_⟩
    simp at hsent
  · rw [if_neg hsync]
    exact ⟨_, rfl, by simp⟩

theorem parsedInBounds_ping (h : 2 ≤ n) (hping : payload[1]? = some cmdPing) :
    ParsedInBounds acc zero handler src payload ↔ 3 ≤ n := by
  constructor
  · rintro ⟨result, hentry, -⟩
    rw [entry_ping h hping] at hentry
    obtain ⟨value, hvalue, -⟩ := Except.bind_eq_ok.mp hentry
    exact (read_eq_ok.mp hvalue).1
  · intro h3
    refine ⟨_, by rw [entry_ping h hping, read_of_lt (by omega : 2 < n)]; rfl, by simp, ?_⟩
    rintro (hshort | ⟨-, hshort⟩ | ⟨hpkt, -⟩)
    · omega
    · omega
    · rw [hping] at hpkt
      exact absurd hpkt (by decide)

theorem parsedInBounds_canPkt (h : 2 ≤ n) (hpkt : payload[1]? = some cmdCanPkt) :
    ParsedInBounds acc zero handler src payload ↔
      ∃ len, payload[6]? = some len ∧ len.toNat ≤ 8 ∧ 7 + len.toNat ≤ n := by
  have hentry : handler.entry acc zero src payload =
      translateInboundCan acc zero { handler with responsePayload := [] } payload :=
    entry_canPkt h hpkt
  constructor
  · rintro ⟨result, hresult, -⟩
    rw [hentry] at hresult
    exact exists_translateInboundCan.mp ⟨result, hresult⟩
  · rintro ⟨len, hlen, h8, hfit⟩
    obtain ⟨result, hresult⟩ : ∃ result, handler.entry acc zero src payload = .ok result := by
      rw [hentry]
      exact exists_translateInboundCan.mpr ⟨len, hlen, h8, hfit⟩
    refine ⟨result, hresult, fun frame hsent => ?_, ?_⟩
    · have hdlc := translateInboundCan_sent (hentry.symm.trans hresult) hsent
      rw [hlen] at hdlc
      cases hdlc
      exact h8
    · rintro (hshort | ⟨hping, -⟩ | ⟨-, hshort | ⟨len', hlen', hshort⟩⟩)
      · omega
      · rw [hpkt] at hping
        exact absurd hping (by decide)
      · omega
      · rw [hlen] at hlen'
        cases hlen'
        omega

theorem parsedInBounds_other (h : 2 ≤ n) (hping : payload[1]? ≠ some cmdPing)
    (hpkt : payload[1]? ≠ some cmdCanPkt) : ParsedInBounds acc zero handler src payload := by
  obtain ⟨result, hentry, hsent⟩ := entry_other h hping hpkt
  refine ⟨result, hentry, fun frame h => absurd h (hsent frame), ?_⟩
  rintro (hshort | ⟨hcmd, -⟩ | ⟨hcmd, -⟩)
  · omega
  · exact absurd hcmd hping
  · exact absurd hcmd hpkt

/-- The handler parses a datagram within its bounds just when the datagram has less than the two
bytes that are checked, or is complete. -/
theorem parsedInBounds_iff : ParsedInBounds acc zero handler src payload ↔
    (2 ≤ n → PayloadComplete payload) := by
  by_cases h : 2 ≤ n
  · by_cases hping : payload[1]? = some cmdPing
    · have hne : cmdPing ≠ cmdCanPkt := by decide
      rw [parsedInBounds_ping h hping, PayloadComplete, hping]
      simp [h, hne]
    by_cases hpkt : payload[1]? = some cmdCanPkt
    · have hne : cmdCanPkt ≠ cmdPing := by decide
      rw [parsedInBounds_canPkt h hpkt, PayloadComplete, hpkt]
      simp [h, hne]
    exact iff_of_true (parsedInBounds_other h hping hpkt)
      fun _ => ⟨fun h => absurd h hping, fun h => absurd h hpkt⟩
  · exact iff_of_true ⟨_, entry_short (by omega), by simp, fun _ => ⟨_, rfl⟩⟩ fun h' => absurd h' h

end

/-- A packet with a length byte of nine, and nine bytes: the ninth goes behind the data of the
frame. -/
theorem overlong_packet_out_of_bounds : ¬ ParsedInBounds bitFieldAccessors
    { canId := 0, canEff := false, canRtr := false, canErr := false }
    { hostAddress := (), hostAddressNn := none, responsePayload := [] } ()
    #v[0xF1, 0x1a, 0xe0, 0x08, 0x00, 0x7e, 9, 1, 2, 3, 4, 5, 6, 7, 8, 9] := by
  rintro ⟨result, h, -⟩
  rw [entry_canPkt (by decide) (by decide)] at h
  obtain ⟨len, hlen, h8, -⟩ := exists_translateInboundCan.mp ⟨result, h⟩
  cases hlen
  exact absurd h8 (by decide)

end OpenmrnCue.Custom
