import OpenmrnCue.Library.ExactRead
import OpenmrnCue.Library.Trace
import Mathlib.Algebra.Order.Ring.Int

/-! Packets over a stream of bytes: `PacketStreamSender` and `PacketStreamReceiver`.  A sender
starts with a magic number, and then writes each packet behind its length.  The receiver reads
lengths and packets, and takes the magic number in place of a length to be nothing. -/

namespace OpenmrnCue.Server

/-! ## Numbers in memory -/

/-- The four bytes of a number, the highest first. -/
def bigEndian (x : UInt32) : List UInt8 :=
  [UInt8.ofNat (x.toNat / 16777216), UInt8.ofNat (x.toNat / 65536), UInt8.ofNat (x.toNat / 256),
    UInt8.ofNat x.toNat]

/-- The number of such bytes. -/
def ofBigEndian (bytes : List UInt8) : UInt32 :=
  UInt32.ofNat (bytes.foldl (fun n b => n * 256 + b.toNat) 0)

section Endianness

variable (littleEndian : Bool)

/-- A number in the memory of a host. -/
def storeNumber (x : UInt32) : List UInt8 :=
  if littleEndian then (bigEndian x).reverse else bigEndian x

/-- The number that is in the memory. -/
def loadNumber (bytes : List UInt8) : UInt32 :=
  ofBigEndian (if littleEndian then bytes.reverse else bytes)

/-- `htonl`. -/
def htonl (x : UInt32) : UInt32 :=
  if littleEndian then ofBigEndian (bigEndian x).reverse else x

/-- `ntohl`. -/
def ntohl (x : UInt32) : UInt32 := htonl littleEndian x

theorem ofBigEndian_bigEndian (x : UInt32) : ofBigEndian (bigEndian x) = x := by
  have hx := x.toNat_lt
  rw [← UInt32.toNat_inj]
  simp only [ofBigEndian, bigEndian, List.foldl_cons, List.foldl_nil, UInt8.toNat_ofNat',
    UInt32.toNat_ofNat']
  omega

theorem bigEndian_ofBigEndian (a b c d : UInt8) : bigEndian (ofBigEndian [a, b, c, d]) =
    [a, b, c, d] := by
  have ha := a.toNat_lt
  have hb := b.toNat_lt
  have hc := c.toNat_lt
  have hd := d.toNat_lt
  simp only [ofBigEndian, bigEndian, List.foldl_cons, List.foldl_nil, List.cons.injEq, and_true,
    ← UInt8.toNat_inj, UInt8.toNat_ofNat', UInt32.toNat_ofNat']
  refine ⟨?_, ?_, ?_, ?_⟩ <;> omega

/-- A number is sent with the highest byte first. -/
theorem storeNumber_htonl (x : UInt32) : storeNumber littleEndian (htonl littleEndian x) =
    bigEndian x := by
  cases littleEndian with
  | false => rfl
  | true =>
    simp only [storeNumber, htonl, if_true]
    rw [show (bigEndian x).reverse = [_, _, _, _] from rfl, bigEndian_ofBigEndian]
    rfl

/-- It is read back so. -/
theorem ntohl_loadNumber (x : UInt32) :
    ntohl littleEndian (loadNumber littleEndian (bigEndian x)) = x := by
  cases littleEndian with
  | false => exact ofBigEndian_bigEndian x
  | true =>
    simp only [ntohl, loadNumber, htonl, if_true]
    rw [show (bigEndian x).reverse = [_, _, _, _] from rfl, bigEndian_ofBigEndian]
    exact ofBigEndian_bigEndian x

@[simp] theorem length_bigEndian (x : UInt32) : (bigEndian x).length = 4 := rfl

end Endianness

def kStreamMagic : UInt32 := 0x3d82c6e2

/-- A packet is a `string`. -/
abbrev Packet := List UInt8

/-! ## The sender -/

/-- What is being written: the state that `write_repeated` leads to. -/
inductive Writing where
  | magic
  | lengthDone
  | allDone
deriving DecidableEq, Repr

/-- `PacketStreamSender`: what it writes and the bytes that are left of it, or nothing while it
waits for a message; the message, and the messages that wait for it. -/
structure PacketStreamSender where
  writing : Option Writing
  unwritten : List UInt8
  message : Packet
  queue : List Packet
deriving Repr

namespace PacketStreamSender

variable (littleEndian : Bool) (f : PacketStreamSender)

/-- `send_magic`, at the start of the flow. -/
def sendMagic : PacketStreamSender where
  writing := some .magic
  unwritten := storeNumber littleEndian (htonl littleEndian kStreamMagic)
  message := []
  queue := []

/-- `entry`. -/
def entry (message : Packet) : PacketStreamSender :=
  { f with
    writing := some .lengthDone
    unwritten := storeNumber littleEndian (htonl littleEndian (UInt32.ofNat message.length))
    message := message }

/-- The next message is taken from the queue, if there is one. -/
def exit : PacketStreamSender :=
  match f.queue with
  | [] => { f with writing := none, unwritten := [], message := [] }
  | message :: queue => entry littleEndian { f with queue := queue } message

/-- `all_done`. -/
def allDone : PacketStreamSender := f.exit littleEndian

/-- `length_done`.  An empty message is written at once. -/
def lengthDone : PacketStreamSender :=
  if f.message = [] then f.allDone littleEndian
  else { f with writing := some .allDone, unwritten := f.message }

def enqueue (message : Packet) : PacketStreamSender := { f with queue := f.queue ++ [message] }

/-- `send`. -/
def send (message : Packet) : PacketStreamSender :=
  if f.writing = none then (f.enqueue message).exit littleEndian else f.enqueue message

/-- The flow goes on when everything is written. -/
def written : PacketStreamSender :=
  match f.writing with
  | some .magic => f.exit littleEndian
  | some .lengthDone => f.lengthDone littleEndian
  | some .allDone => f.allDone littleEndian
  | none => f

/-- So many bytes are written. -/
def write (n : Nat) : Option (List UInt8 × PacketStreamSender) :=
  if 0 < n ∧ n ≤ f.unwritten.length then
    some (f.unwritten.take n,
      if n < f.unwritten.length then { f with unwritten := f.unwritten.drop n }
      else written littleEndian { f with unwritten := [] })
  else none

end PacketStreamSender

/-! ## The receiver -/

/-- What is being read: a length, or a packet of some length, which is not nothing. -/
inductive Reading where
  | length
  | packet (length : UInt32) (hlength : length ≠ 0)

/-- `PacketStreamReceiver`: what it reads, and the packets that it has sent to its handler. -/
structure PacketStreamReceiver where
  reading : Reading
  delivered : List Packet

namespace PacketStreamReceiver

variable (littleEndian : Bool) (f : PacketStreamReceiver)

/-- `read_length`. -/
def readLength : PacketStreamReceiver := { f with reading := .length }

/-- `all_done`. -/
def allDone (msg : Packet) : PacketStreamReceiver :=
  readLength { f with delivered := f.delivered ++ [msg] }

/-- `alloc_done`.  Nothing is read of an empty packet. -/
def allocDone (length : UInt32) : PacketStreamReceiver :=
  if h : length = 0 then f.allDone [] else { f with reading := .packet length h }

/-- `length_done`. -/
def lengthDone (bytes : List UInt8) : PacketStreamReceiver :=
  let length := ntohl littleEndian (loadNumber littleEndian bytes)
  if length = kStreamMagic then f.readLength else f.allocDone length

/-- What `read_repeated` is called for, and the state after it. -/
def reader : ExactRead.Reader PacketStreamReceiver UInt8 where
  want f := match f.reading with
    | .length => 4
    | .packet length _ => length.toNat
  next f bytes := match f.reading with
    | .length => f.lengthDone littleEndian bytes
    | .packet _ _ => f.allDone bytes
  want_pos f := by
    cases f.reading with
    | length => exact Nat.zero_lt_succ 3
    | packet length hlength =>
      exact Nat.pos_of_ne_zero fun h => hlength (UInt32.toNat_inj.mp h)

/-- The constructor. -/
def init : PacketStreamReceiver := ⟨.length, []⟩

end PacketStreamReceiver

/-! ## The stream -/

/-- The sender and the receiver at the two ends of a stream, and the messages that were sent. -/
structure PacketStream (fromLittle toLittle : Bool) where
  sender : PacketStreamSender
  stream : List UInt8
  receiver : ExactRead.Pending (PacketStreamReceiver.reader toLittle)
  sent : List Packet

/-- A message is sent, bytes are written or read, or another sender takes over. -/
inductive StreamStep where
  | send (message : Packet)
  | write (n : Nat)
  | read (n : Nat)
  | newSender
deriving DecidableEq, Repr

/-- The message that is sent. -/
def StreamStep.message? : StreamStep → Option Packet
  | .send message => some message
  | _ => none

/-- Bytes are moved. -/
def StreamStep.IsTransfer : StreamStep → Prop
  | .write _ | .read _ => True
  | _ => False

namespace PacketStream

variable {fromLittle toLittle : Bool} (c : PacketStream fromLittle toLittle)

/-- The first sender and the receiver are constructed. -/
def init : PacketStream fromLittle toLittle where
  sender := .sendMagic fromLittle
  stream := []
  receiver := .start _ .init
  sent := []

/-- A step that the two can take.  A sender is replaced when it is waiting. -/
def step : StreamStep → Option (PacketStream fromLittle toLittle)
  | .send message =>
    some { c with sender := c.sender.send fromLittle message, sent := c.sent ++ [message] }
  | .write n =>
    match c.sender.write fromLittle n with
    | some (bytes, sender) => some { c with sender := sender, stream := c.stream ++ bytes }
    | none => none
  | .read n =>
    if 0 < n ∧ n ≤ c.stream.length ∧ n ≤ c.receiver.missing then
      some { c with receiver := c.receiver.read (c.stream.take n), stream := c.stream.drop n }
    else none
  | .newSender =>
    if c.sender.writing = none then some { c with sender := .sendMagic fromLittle } else none

end PacketStream

/-! ## What is still to be written -/

/-- A packet on the stream. -/
def frame (p : Packet) : List UInt8 := bigEndian (UInt32.ofNat p.length) ++ p

/-- A packet whose length can be sent: it fits in four bytes and is not the magic number. -/
def Sendable (p : Packet) : Prop := p.length < 2 ^ 32 ∧ p.length ≠ kStreamMagic.toNat

instance (p : Packet) : Decidable (Sendable p) := inferInstanceAs (Decidable (_ ∧ _))

namespace PacketStreamSender

variable {littleEndian : Bool} {f g : PacketStreamSender} {message : Packet} {n : Nat}
  {bytes : List UInt8}

/-- The message, while its length is being written. -/
def unstarted : Option Writing → Packet → List UInt8
  | some .lengthDone, message => message
  | _, _ => []

/-- The bytes that are left of what is being written, of the message and of the queue. -/
def pending (f : PacketStreamSender) : List UInt8 :=
  f.unwritten ++ unstarted f.writing f.message ++ f.queue.flatMap frame

/-- A sender that waits has nothing to write, and one that writes has something. -/
structure Good (f : PacketStreamSender) : Prop where
  waiting : f.writing = none → f.unwritten = [] ∧ f.queue = []
  writing : f.writing ≠ none → f.unwritten ≠ []

theorem good_sendMagic : (sendMagic littleEndian).Good := by
  constructor
  case waiting => exact fun h => by cases h
  case writing => exact fun _ => by rw [sendMagic, storeNumber_htonl]; simp [bigEndian]

theorem pending_sendMagic : (sendMagic littleEndian).pending = bigEndian kStreamMagic := by
  simp [pending, unstarted, sendMagic, storeNumber_htonl]

theorem pending_entry : (f.entry littleEndian message).pending =
    frame message ++ f.queue.flatMap frame := by
  simp [pending, unstarted, entry, storeNumber_htonl, frame]

theorem good_entry : (f.entry littleEndian message).Good := by
  constructor
  case waiting => exact fun h => by cases h
  case writing => exact fun _ => by simp [entry, storeNumber_htonl, bigEndian]

theorem good_exit : (f.exit littleEndian).Good := by
  unfold exit
  split
  · next hqueue =>
    exact ⟨fun _ => ⟨rfl, hqueue⟩, fun h => absurd rfl h⟩
  · exact good_entry

/-- Only the queue is left. -/
theorem pending_exit : (f.exit littleEndian).pending = f.queue.flatMap frame := by
  unfold exit
  split
  · next hqueue => simp [pending, unstarted, hqueue]
  · next message queue hqueue => rw [pending_entry, hqueue, List.flatMap_cons]

theorem Good.lengthDone : (f.lengthDone littleEndian).Good := by
  unfold PacketStreamSender.lengthDone
  split
  · exact good_exit
  · next hmessage => exact ⟨fun h => (by cases h), fun _ => hmessage⟩

theorem pending_lengthDone : (f.lengthDone littleEndian).pending =
    f.message ++ f.queue.flatMap frame := by
  unfold PacketStreamSender.lengthDone
  split
  · next hmessage => rw [allDone, pending_exit, hmessage, List.nil_append]
  · show f.message ++ [] ++ _ = _
    rw [List.append_nil]

theorem Good.send (h : f.Good) : (f.send littleEndian message).Good := by
  unfold PacketStreamSender.send
  split
  · exact good_exit
  · next hwriting => exact ⟨fun hnone => absurd hnone hwriting, h.writing⟩

/-- A message that is sent comes last. -/
theorem Good.pending_send (h : f.Good) :
    (f.send littleEndian message).pending = f.pending ++ frame message := by
  unfold PacketStreamSender.send
  split
  · next hnone =>
    obtain ⟨hunwritten, hqueue⟩ := h.waiting hnone
    rw [pending_exit]
    simp [pending, unstarted, enqueue, hunwritten, hqueue, hnone]
  · simp [pending, unstarted, enqueue, List.append_assoc]

/-- The flow goes on with what is left. -/
theorem good_written (hwriting : f.writing ≠ none) : (f.written littleEndian).Good := by
  unfold written
  split
  · exact good_exit
  · exact Good.lengthDone
  · exact good_exit
  · next hnone => exact absurd hnone hwriting

theorem pending_written (hwriting : f.writing ≠ none) (hunwritten : f.unwritten = []) :
    (f.written littleEndian).pending = f.pending := by
  unfold written
  split
  · next hmagic => rw [pending_exit]; simp [pending, unstarted, hmagic, hunwritten]
  · next hlength => rw [pending_lengthDone]; simp [pending, unstarted, hlength, hunwritten]
  · next hall => rw [allDone, pending_exit]; simp [pending, unstarted, hall, hunwritten]
  · next hnone => exact absurd hnone hwriting

/-- What is written comes first, and the rest stays to be written. -/
theorem Good.write (h : f.Good) (hwrite : f.write littleEndian n = some (bytes, g)) :
    g.Good ∧ bytes ++ g.pending = f.pending ∧ bytes.length = n ∧ 0 < n := by
  unfold PacketStreamSender.write at hwrite
  split at hwrite
  · next hn =>
    obtain ⟨rfl, rfl⟩ := Prod.mk.inj (Option.some.inj hwrite)
    obtain ⟨hpos, hle⟩ := hn
    have hwriting : f.writing ≠ none := by
      intro hnone
      rw [(h.waiting hnone).1, List.length_nil] at hle
      omega
    refine ⟨?_, ?_, by rw [List.length_take]; omega, hpos⟩
    · split
      · next hlt =>
        refine ⟨fun hnone => absurd hnone hwriting, fun _ hnil => ?_⟩
        have hlength : (f.unwritten.drop n).length = 0 := List.length_eq_zero_iff.mpr hnil
        rw [List.length_drop] at hlength
        omega
      · exact good_written hwriting
    · split
      · simp only [pending, unstarted, ← List.append_assoc, List.take_append_drop]
      · next hlast =>
        rw [pending_written (f := { f with unwritten := [] }) hwriting rfl,
          List.take_of_length_le (by omega)]
        simp [pending]
  · cases hwrite

/-- A sender that does not wait can write. -/
theorem Good.exists_write (littleEndian : Bool) (h : f.Good) (hwriting : f.writing ≠ none) :
    ∃ result, f.write littleEndian 1 = some result := by
  have hlength := List.length_pos_iff.mpr (h.writing hwriting)
  exact ⟨_, if_pos ⟨Nat.one_pos, hlength⟩⟩

/-- A sender that waits has nothing pending. -/
theorem Good.pending_eq_nil (h : f.Good) (hwriting : f.writing = none) : f.pending = [] := by
  obtain ⟨hunwritten, hqueue⟩ := h.waiting hwriting
  simp [pending, unstarted, hunwritten, hqueue, hwriting]

end PacketStreamSender

/-! ## What the receiver makes of it -/

namespace PacketStreamReceiver

variable {littleEndian : Bool} {delivered : List Packet} {p : Packet}

/-- The receiver has delivered these packets and waits for a length. -/
def waiting (littleEndian : Bool) (delivered : List Packet) :
    ExactRead.Pending (reader littleEndian) := .start _ ⟨.length, delivered⟩

/-- Four bytes are a length. -/
theorem feedAll_number (x : UInt32) : (waiting littleEndian delivered).feedAll (bigEndian x) =
    .start _ (if x = kStreamMagic then ⟨.length, delivered⟩
      else allocDone ⟨.length, delivered⟩ x) := by
  rw [waiting, ExactRead.Pending.feedAll_start (length_bigEndian x)]
  simp only [reader, lengthDone, ntohl_loadNumber]
  rfl

/-- A magic number is nothing. -/
theorem feedAll_magic : (waiting littleEndian delivered).feedAll (bigEndian kStreamMagic) =
    waiting littleEndian delivered := by
  rw [feedAll_number, if_pos rfl]
  rfl

/-- A packet is delivered. -/
theorem feedAll_frame (hp : Sendable p) : (waiting littleEndian delivered).feedAll (frame p) =
    waiting littleEndian (delivered ++ [p]) := by
  obtain ⟨hlt, hmagic⟩ := hp
  have hlength : (UInt32.ofNat p.length).toNat = p.length := UInt32.toNat_ofNat_of_lt' hlt
  have hne : UInt32.ofNat p.length ≠ kStreamMagic := by
    intro heq
    rw [heq] at hlength
    exact hmagic hlength.symm
  rw [frame, ExactRead.Pending.feedAll_append, feedAll_number, if_neg hne]
  by_cases hzero : UInt32.ofNat p.length = 0
  · rw [hzero] at hlength
    obtain rfl : p = [] := List.eq_nil_of_length_eq_zero hlength.symm
    rfl
  · rw [allocDone, dif_neg hzero, ExactRead.Pending.feedAll_start hlength.symm]
    rfl

end PacketStreamReceiver

/-- What has been delivered stays. -/
theorem PacketStreamReceiver.delivered_read {littleEndian : Bool}
    (p : ExactRead.Pending (reader littleEndian)) (bytes : List UInt8) :
    p.state.delivered <+: (p.read bytes).state.delivered := by
  obtain ⟨⟨reading, delivered⟩, got, hgot⟩ := p
  unfold ExactRead.Pending.read
  split
  · exact List.prefix_refl _
  · cases reading with
    | packet length hlength => exact List.prefix_append _ _
    | length =>
      simp only [ExactRead.Pending.start, reader, lengthDone]
      split
      · exact List.prefix_refl _
      · unfold allocDone
        split
        · exact List.prefix_append _ _
        · exact List.prefix_refl _

theorem PacketStreamReceiver.delivered_feedAll {littleEndian : Bool}
    (p : ExactRead.Pending (reader littleEndian)) (bytes : List UInt8) :
    p.state.delivered <+: (p.feedAll bytes).state.delivered := by
  induction bytes generalizing p with
  | nil => exact List.prefix_refl _
  | cons b bytes ih => exact (delivered_read p [b]).trans (ih _)

/-! ## Runs of the stream -/

namespace PacketStream

variable {fromLittle toLittle : Bool} {c d : PacketStream fromLittle toLittle} {i : StreamStep}

/-- What is on the stream and still to be written completes what has been sent. -/
structure Complete (c : PacketStream fromLittle toLittle) : Prop where
  sender : c.sender.Good
  receiver : c.receiver.feedAll (c.stream ++ c.sender.pending) =
    PacketStreamReceiver.waiting toLittle c.sent

theorem complete_init : (init : PacketStream fromLittle toLittle).Complete :=
  ⟨PacketStreamSender.good_sendMagic, by
    rw [init, PacketStreamSender.pending_sendMagic]
    exact PacketStreamReceiver.feedAll_magic⟩

theorem Complete.step (h : c.Complete) (hi : ∀ m, i = .send m → Sendable m)
    (hstep : c.step i = some d) : d.Complete := by
  cases i with
  | send m =>
    cases hstep
    refine ⟨h.sender.send, ?_⟩
    rw [h.sender.pending_send, ← List.append_assoc, ExactRead.Pending.feedAll_append, h.receiver,
      PacketStreamReceiver.feedAll_frame (hi m rfl)]
  | write n =>
    simp only [PacketStream.step] at hstep
    split at hstep
    · next bytes sender hwrite =>
      cases hstep
      obtain ⟨hgood, hpending, -⟩ := h.sender.write hwrite
      refine ⟨hgood, ?_⟩
      rw [List.append_assoc, hpending]
      exact h.receiver
    · cases hstep
  | read n =>
    simp only [PacketStream.step] at hstep
    split at hstep
    · next hn =>
      cases hstep
      refine ⟨h.sender, ?_⟩
      have hpiece : (c.stream.take n).length ≤ c.receiver.missing := by
        rw [List.length_take]
        omega
      rw [← ExactRead.Pending.feedAll_of_le hpiece, ← ExactRead.Pending.feedAll_append,
        ← List.append_assoc, List.take_append_drop]
      exact h.receiver
    · cases hstep
  | newSender =>
    simp only [PacketStream.step] at hstep
    split at hstep
    · next hnone =>
      cases hstep
      refine ⟨PacketStreamSender.good_sendMagic, ?_⟩
      have hreceiver := h.receiver
      rw [h.sender.pending_eq_nil hnone, List.append_nil] at hreceiver
      rw [PacketStreamSender.pending_sendMagic, ExactRead.Pending.feedAll_append, hreceiver,
        PacketStreamReceiver.feedAll_magic]
    · cases hstep

/-- How many bytes are still to be moved, once to the stream and once from it. -/
def toMove (c : PacketStream fromLittle toLittle) : Nat :=
  2 * c.sender.pending.length + c.stream.length

/-- Nothing is left to be written or read. -/
def Quiet (c : PacketStream fromLittle toLittle) : Prop := c.sender.writing = none ∧ c.stream = []

/-- Bytes that are moved once need not be moved again. -/
theorem Complete.toMove_lt (h : c.Complete) (hi : i.IsTransfer) (hstep : c.step i = some d) :
    d.toMove < c.toMove ∧ d.sent = c.sent := by
  cases i with
  | write n =>
    simp only [PacketStream.step] at hstep
    split at hstep
    · next bytes sender hwrite =>
      cases hstep
      obtain ⟨-, hpending, hbytes, hpos⟩ := h.sender.write hwrite
      refine ⟨?_, rfl⟩
      simp only [toMove, ← hpending, List.length_append]
      omega
    · cases hstep
  | read n =>
    simp only [PacketStream.step] at hstep
    split at hstep
    · next hn =>
      cases hstep
      refine ⟨?_, rfl⟩
      simp only [toMove, List.length_drop]
      omega
    · cases hstep
  | send m => exact hi.elim
  | newSender => exact hi.elim

/-- As long as something is left, bytes can be moved. -/
theorem Complete.exists_transfer (h : c.Complete) (hc : ¬ c.Quiet) :
    ∃ i d, i.IsTransfer ∧ c.step i = some d := by
  by_cases hwriting : c.sender.writing = none
  · have hstream : c.stream ≠ [] := fun hnil => hc ⟨hwriting, hnil⟩
    have hlength := List.length_pos_iff.mpr hstream
    have hmissing := c.receiver.missing_pos
    exact ⟨.read 1, _, trivial, if_pos ⟨Nat.one_pos, hlength, hmissing⟩⟩
  · obtain ⟨⟨bytes, sender⟩, hwrite⟩ := h.sender.exists_write fromLittle hwriting
    exact ⟨.write 1, { c with sender := sender, stream := c.stream ++ bytes }, trivial, by
      simp only [PacketStream.step, hwrite]⟩

/-- When nothing is left, all packets are delivered and the receiver waits for a length. -/
theorem Complete.delivered (h : c.Complete) (hc : c.Quiet) :
    c.receiver = PacketStreamReceiver.waiting toLittle c.sent := by
  have hreceiver := h.receiver
  rwa [h.sender.pending_eq_nil hc.1, hc.2, List.append_nil,
    ExactRead.Pending.feedAll_nil] at hreceiver

/-- Packets are delivered in the order in which they are sent. -/
theorem Complete.in_order (h : c.Complete) : c.receiver.state.delivered <+: c.sent := by
  have hdelivered := PacketStreamReceiver.delivered_feedAll c.receiver
    (c.stream ++ c.sender.pending)
  rw [h.receiver] at hdelivered
  exact hdelivered

theorem complete_run {history : List StreamStep}
    (hsent : ∀ m, .send m ∈ history → Sendable m) (hc : c.Complete)
    (hrun : Trace.run step c history = some d) : d.Complete := by
  induction history generalizing c with
  | nil =>
    cases hrun
    exact hc
  | cons i history ih =>
    obtain ⟨e, hstep, hrun⟩ := Option.bind_eq_some_iff.mp (Trace.run_cons ▸ hrun)
    have hnext := hc.step (fun m hm => hsent m (hm ▸ List.mem_cons_self)) hstep
    exact ih (fun m hm => hsent m (List.mem_cons_of_mem _ hm)) hnext hrun

theorem sent_step (hstep : c.step i = some d) : d.sent = c.sent ++ i.message?.toList := by
  cases i with
  | send m =>
    cases hstep
    rfl
  | write n =>
    simp only [step] at hstep
    split at hstep
    · cases hstep
      exact (List.append_nil _).symm
    · cases hstep
  | read n =>
    simp only [step] at hstep
    split at hstep
    · cases hstep
      exact (List.append_nil _).symm
    · cases hstep
  | newSender =>
    simp only [step] at hstep
    split at hstep
    · cases hstep
      exact (List.append_nil _).symm
    · cases hstep

/-- The messages are those that the steps send. -/
theorem sent_run {history : List StreamStep} (hrun : Trace.run step c history = some d) :
    d.sent = c.sent ++ history.filterMap StreamStep.message? := by
  induction history generalizing c with
  | nil =>
    cases hrun
    exact (List.append_nil _).symm
  | cons i history ih =>
    obtain ⟨e, hstep, hrun⟩ := Option.bind_eq_some_iff.mp (Trace.run_cons ▸ hrun)
    rw [ih hrun, sent_step hstep, List.append_assoc]
    cases hmessage : i.message? <;> simp [hmessage]

/-- The transfers come to an end. -/
theorem Complete.transfers_le {history : List StreamStep} (hc : c.Complete)
    (htransfers : ∀ i ∈ history, i.IsTransfer)
    (hrun : Trace.run PacketStream.step c history = some d) : history.length ≤ c.toMove := by
  induction history generalizing c with
  | nil => exact Nat.zero_le _
  | cons i history ih =>
    obtain ⟨hi, htransfers⟩ := List.forall_mem_cons.mp htransfers
    obtain ⟨e, hstep, hrun⟩ := Option.bind_eq_some_iff.mp (Trace.run_cons ▸ hrun)
    have hnext : e.Complete := by
      refine hc.step (fun m hm => ?_) hstep
      subst hm
      exact hi.elim
    have hrest := ih hnext htransfers hrun
    have hlt := (hc.toMove_lt hi hstep).1
    rw [List.length_cons]
    omega

/-- Packets of any length but the magic number arrive as they are sent, however the stream is cut
and whatever they hold: none is delivered out of order; bytes can be moved until all are delivered
and the receiver waits for a length, and that takes no more than a number of steps. -/
theorem packets_arrive (fromLittle toLittle : Bool) {history : List StreamStep}
    {c : PacketStream fromLittle toLittle} (hrun : Trace.run step init history = some c)
    (hsent : ∀ m, .send m ∈ history → Sendable m) :
    c.receiver.state.delivered <+: history.filterMap StreamStep.message? ∧
    (c.Quiet → c.receiver =
      .start _ ⟨.length, history.filterMap StreamStep.message?⟩) ∧
    (¬ c.Quiet → ∃ i d, i.IsTransfer ∧ c.step i = some d) ∧
    ∀ transfers d, (∀ i ∈ transfers, i.IsTransfer) → Trace.run step c transfers = some d →
      transfers.length ≤ c.toMove := by
  have hc := complete_run hsent complete_init hrun
  have hmessages : c.sent = history.filterMap StreamStep.message? := sent_run hrun
  exact ⟨hmessages ▸ hc.in_order, fun hquiet => hmessages ▸ hc.delivered hquiet,
    hc.exists_transfer, fun transfers d htransfers hrun => hc.transfers_le htransfers hrun⟩

/-- Two packets, one of them with the magic number and one empty, from two senders, in pieces. -/
theorem twoSenders_arrive : ∃ c : PacketStream true false,
    Trace.run step init [.send [0x3d, 0x82, 0xc6, 0xe2], .write 3, .read 2, .write 1, .write 4,
      .read 1, .read 1, .read 4, .write 4, .newSender, .write 4, .send [], .read 3, .write 4,
      .read 1, .read 4, .read 4] = some c ∧
    c.receiver = .start _ ⟨.length, [[0x3d, 0x82, 0xc6, 0xe2], []]⟩ := by
  have hquiet : ((Trace.run step (init : PacketStream true false) [.send [0x3d, 0x82, 0xc6, 0xe2],
      .write 3, .read 2, .write 1, .write 4, .read 1, .read 1, .read 4, .write 4, .newSender,
      .write 4, .send [], .read 3, .write 4, .read 1, .read 4, .read 4]).map
        fun c => (c.sender.writing, c.stream)) = some (none, []) := by
    decide
  obtain ⟨c, hrun, hc⟩ := Option.map_eq_some_iff.mp hquiet
  obtain ⟨hwriting, hstream⟩ := Prod.mk.inj hc
  refine ⟨c, hrun, (packets_arrive true false hrun fun m hm => ?_).2.1 ⟨hwriting, hstream⟩⟩
  simp only [List.mem_cons, StreamStep.send.injEq, reduceCtorEq, List.not_mem_nil, or_false,
    false_or] at hm
  rcases hm with rfl | rfl
  · decide
  · decide

end PacketStream

end OpenmrnCue.Server
