import OpenmrnCue.CommandStation.FrontendRuns
import Mathlib.Logic.Function.Basic

/-! What a decoder says in the exchanges of a request.  A packet is acknowledged in its own answer
or in the one to the resets that follow it.  A decoder in direct mode stores what is written, and a
packet that asks is acknowledged exactly when this is true. -/

namespace OpenmrnCue.CommandStation

/-- The packets of direct mode that only ask. -/
def ServicePacket.verifies : ServicePacket → Bool
  | .verifyByte _ _ | .verifyBit _ _ _ => true
  | _ => false

namespace Exchange

/-- The packet that was asked for. -/
def packet (e : Exchange) : Option ServicePacket :=
  match e.request with
  | some (.sendProgrammingPacket packet _ _) => some packet
  | _ => none

/-- An acknowledgement in the resets that come first. -/
def ackedInResets : List Exchange → Bool
  | ⟨some (.sendReset _), answer⟩ :: _ => answer.hasAck
  | _ => false

/-- An acknowledgement of the packet, in its own answer or in that of the resets after it. -/
def acked (packet : ServicePacket) : List Exchange → Bool
  | [] => false
  | e :: rest =>
    if e.packet = some packet then e.answer.hasAck || ackedInResets rest else acked packet rest

/-- An answer reports a short circuit. -/
def Shorted (exchanges : List Exchange) : Prop :=
  ∃ e ∈ exchanges, e.answer.hasShortCircuit = true

/-- What a direct-mode packet asks of a decoder with these variables. -/
def holds (memory : Nat → Nat) : ServicePacket → Option Bool
  | .verifyByte cv value => some (decide (memory cv = value))
  | .verifyBit cv bit value => some ((memory cv).testBit bit == value)
  | _ => none

/-- The variables after a direct-mode packet. -/
def store (memory : Nat → Nat) : ServicePacket → Nat → Nat
  | .writeByte cv value => Function.update memory cv value
  | .writeBit cv bit value =>
    if (memory cv).testBit bit = value then memory
    else Function.update memory cv (memory cv ^^^ (1 <<< bit))
  | _ => memory

/-- The variables after an exchange. -/
def after (memory : Nat → Nat) (e : Exchange) : Nat → Nat :=
  match e.packet with
  | some p => store memory p
  | none => memory

/-- The variables after these exchanges. -/
def stored (memory : Nat → Nat) : List Exchange → Nat → Nat
  | [] => memory
  | e :: rest => stored (after memory e) rest

/-- A decoder that acknowledges a direct-mode packet that asks exactly when this is true. -/
def Truthful (memory : Nat → Nat) : List Exchange → Prop
  | [] => True
  | e :: rest =>
    (∀ p value, e.packet = some p → holds memory p = some value →
      (e.answer.hasAck || ackedInResets rest) = value) ∧
    Truthful (after memory e) rest

variable {memory : Nat → Nat} {pre rest : List Exchange} {p : ServicePacket}

theorem acked_append (hpre : ∀ e ∈ pre, e.packet = none) :
    acked p (pre ++ rest) = acked p rest := by
  induction pre with
  | nil => rfl
  | cons e pre ih =>
    have he : e.packet ≠ some p := by
      rw [hpre e List.mem_cons_self]
      exact (Option.some_ne_none p).symm
    rw [List.cons_append, acked, if_neg he]
    exact ih fun e he => hpre e (List.mem_cons_of_mem _ he)

theorem after_of_none {e : Exchange} (h : e.packet = none) : after memory e = memory := by
  rw [after, h]

theorem after_of_verifies {e : Exchange}
    (h : ∀ p, e.packet = some p → p.verifies = true) : after memory e = memory := by
  unfold after
  cases hpacket : e.packet with
  | none => rfl
  | some p =>
    have hverifies := h p hpacket
    cases p <;> first | rfl | cases hverifies

theorem truthful_append (hpre : ∀ e ∈ pre, e.packet = none)
    (h : Truthful memory (pre ++ rest)) : Truthful memory rest := by
  induction pre with
  | nil => exact h
  | cons e pre ih =>
    obtain ⟨-, h⟩ := h
    rw [after_of_none (hpre e List.mem_cons_self)] at h
    exact ih (fun e he => hpre e (List.mem_cons_of_mem _ he)) h

theorem stored_append (hpre : ∀ e ∈ pre, e.packet = none) :
    stored memory (pre ++ rest) = stored memory rest := by
  induction pre with
  | nil => rfl
  | cons e pre ih =>
    rw [List.cons_append, stored, after_of_none (hpre e List.mem_cons_self)]
    exact ih fun e he => hpre e (List.mem_cons_of_mem _ he)

/-- Packets that only ask leave the variables as they are. -/
theorem stored_of_verifies
    (h : ∀ e ∈ rest, ∀ p, e.packet = some p → p.verifies = true) : stored memory rest = memory := by
  induction rest with
  | nil => rfl
  | cons e rest ih =>
    rw [stored, after_of_verifies (h e List.mem_cons_self)]
    exact ih fun e he => h e (List.mem_cons_of_mem _ he)

/-- A truthful decoder acknowledges what it is asked, as long as nothing is written. -/
theorem acked_of_truthful {value : Bool}
    (h : ∀ e ∈ rest, ∀ p, e.packet = some p → p.verifies = true)
    (htruthful : Truthful memory rest) (hasks : ∃ e ∈ rest, e.packet = some p)
    (hholds : holds memory p = some value) : acked p rest = value := by
  induction rest with
  | nil =>
    obtain ⟨e, he, -⟩ := hasks
    cases he
  | cons e rest ih =>
    obtain ⟨hanswer, htruthful⟩ := htruthful
    by_cases hpacket : e.packet = some p
    · rw [acked, if_pos hpacket]
      exact hanswer p value hpacket hholds
    · rw [acked, if_neg hpacket]
      rw [after_of_verifies (h e List.mem_cons_self)] at htruthful
      refine ih (fun e he => h e (List.mem_cons_of_mem _ he)) htruthful ?_
      obtain ⟨e', he', hp⟩ := hasks
      rcases List.mem_cons.mp he' with rfl | he'
      · exact absurd hp hpacket
      · exact ⟨e', he', hp⟩

end Exchange

end OpenmrnCue.CommandStation
