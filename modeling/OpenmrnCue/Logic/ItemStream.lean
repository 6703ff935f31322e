import OpenmrnCue.Logic.Execution

/-! The primitives of the bytecode, read back in the order in which they were appended: an
instruction byte, an integer or a text.  Each read ends where the write of its item ended, whatever
comes behind it, and an integer or a text that is cut off is an error. -/

namespace OpenmrnCue.Logic

/-! ### Items -/

/-- What is appended and read back. -/
inductive Value where
  | insn (b : UInt8)
  | varint (value : Int32)
  | text (value : Bytes)
  deriving DecidableEq, Repr

inductive ValueKind where
  | insn | varint | text
  deriving DecidableEq, Repr

namespace Value

def kind : Value → ValueKind
  | insn _ => .insn
  | varint _ => .varint
  | text _ => .text

/-- The length of a text is an `int`. -/
def Fits : Value → Prop
  | text value => value.length < 2 ^ 31
  | _ => True

instance (v : Value) : Decidable v.Fits :=
  match v with
  | .text value => inferInstanceAs (Decidable (value.length < 2 ^ 31))
  | .insn _ | .varint _ => isTrue trivial

/-- The bytes that `append_opcode`, `append_varint` and `append_string` append. -/
def bytes : Value → Bytes
  | insn b => [b]
  | varint value => appendVarint value
  | text value => appendString value

end Value

/-- A value that can be appended. -/
structure Primitive where
  value : Value
  fits : value.Fits

namespace Primitive

def bytes (i : Primitive) : Bytes := i.value.bytes
def kind (i : Primitive) : ValueKind := i.value.kind

end Primitive

/-! ### Reading -/

namespace VM

variable {W H : Type} {vm : VM W H}

/-- `VM::fetch_insn`; nothing tells what it reads at the end of the code. -/
def fetchInsn (vm : VM W H) (k : UInt8 → VM W H → Step W H) : Step W H :=
  match vm.rest with
  | [] => vm.undefined
  | b :: _ => k b { vm with ip := vm.ip + 1 }

/-- Reads one value of a kind. -/
def readValue (vm : VM W H) (kind : ValueKind) (k : Value → VM W H → Step W H) : Step W H :=
  match kind with
  | .insn => vm.fetchInsn fun b vm => k (.insn b) vm
  | .varint => vm.getVarint fun value vm => k (.varint value) vm
  | .text => vm.parseString fun vm => k (.text vm.stringAcc) vm

/-- Reads values of these kinds in order, each with the number of bytes that it takes. -/
def readValues (vm : VM W H) : List ValueKind → (List (Value × Nat) → VM W H → Step W H) → Step W H
  | [], k => k [] vm
  | kind :: rest, k => vm.readValue kind fun value vm' =>
    vm'.readValues rest fun values vm'' => k ((value, vm'.ip - vm.ip) :: values) vm''

/-- The machine behind an item. -/
def past (vm : VM W H) (i : Primitive) : VM W H :=
  match i.value with
  | .text value => { vm.advance i.bytes.length with stringAcc := value }
  | _ => vm.advance i.bytes.length

@[simp] theorem past_ip (i : Primitive) : (vm.past i).ip = vm.ip + i.bytes.length := by
  unfold past
  split <;> rfl

theorem past_rest {i : Primitive} {tail : Bytes} (h : vm.rest = i.bytes ++ tail) :
    (vm.past i).rest = tail := by
  have hrest : (vm.past i).rest = (vm.advance i.bytes.length).rest := by
    unfold past
    split <;> rfl
  exact hrest.trans (rest_advance h)

theorem parseString_eq {text tail : Bytes} (hshort : text.length < 2 ^ 31)
    (h : vm.rest = appendString text ++ tail) (k : VM W H → Step W H) :
    vm.parseString k =
      k { vm.advance (appendString text).length with stringAcc := text } := by
  have hint : (Int32.ofNat text.length).toInt = text.length := Int32.toInt_ofNat_of_lt hshort
  have hneg : ¬ Int32.ofNat text.length < 0 := by
    rw [Int32.lt_iff_toInt_lt, hint]
    simp
  have hrest : ({ vm with stringAcc := [] } : VM W H).rest =
      appendVarint (.ofNat text.length) ++ (text ++ tail) := by
    rw [appendString, List.append_assoc] at h
    exact h
  have htext := rest_advance hrest
  rw [parseString, getVarint_eq hrest, if_neg hneg, hint, htext, if_neg (by simp)]
  simp [advance, appendString, Nat.add_assoc]

/-- An item is read back. -/
theorem readValue_eq {i : Primitive} {tail : Bytes} (h : vm.rest = i.bytes ++ tail)
    (k : Value → VM W H → Step W H) : vm.readValue i.kind k = k i.value (vm.past i) := by
  obtain ⟨value, hfits⟩ := i
  cases value with
  | insn b =>
    have hrest : vm.rest = b :: tail := h
    simp [readValue, Primitive.kind, Value.kind, fetchInsn, hrest, past, Primitive.bytes,
      Value.bytes, advance]
  | varint value => exact getVarint_eq h _
  | text value => exact parseString_eq hfits h fun vm => k (.text vm.stringAcc) vm

/-- The machine behind items. -/
def pastAll (vm : VM W H) (items : List Primitive) : VM W H := items.foldl past vm

/-- Items are read back in order, and each read takes the bytes that were appended for its item. -/
theorem readValues_eq {items : List Primitive} {tail : Bytes}
    (h : vm.rest = items.flatMap Primitive.bytes ++ tail)
    (k : List (Value × Nat) → VM W H → Step W H) :
    vm.readValues (items.map Primitive.kind) k =
      k (items.map fun i => (i.value, i.bytes.length)) (vm.pastAll items) := by
  induction items generalizing vm k with
  | nil => rfl
  | cons i rest ih =>
    rw [List.flatMap_cons, List.append_assoc] at h
    have hread := readValue_eq h
    rw [List.map_cons, readValues, hread, ih (past_rest h), past_ip, Nat.add_sub_cancel_left]
    rfl

end VM

/-! ### Cut off -/

theorem parseVarintLoop_append {b : UInt8} {ret : BitVec 32} {ofs : Nat} {code rest : Bytes}
    {value : Int32} (h : parseVarintLoop b ret ofs code = some (value, rest)) (tail : Bytes) :
    parseVarintLoop b ret ofs (code ++ tail) = some (value, rest ++ tail) := by
  induction code generalizing b ret ofs with
  | nil =>
    rw [parseVarintLoop.eq_def] at h ⊢
    split at h
    · next hb =>
      cases h
      rw [if_pos hb]
    · cases h
  | cons c code ih =>
    rw [parseVarintLoop.eq_def] at h ⊢
    split at h
    · next hb =>
      cases h
      rw [if_pos hb]
    · next hb =>
      rw [if_neg hb]
      exact ih h

/-- Reading an integer does not depend on what comes behind it. -/
theorem parseVarint_append {code rest : Bytes} {value : Int32}
    (h : parseVarint code = some (value, rest)) (tail : Bytes) :
    parseVarint (code ++ tail) = some (value, rest ++ tail) := by
  cases code with
  | nil => cases h
  | cons b code => exact parseVarintLoop_append h tail

/-- Of the bytes of an integer, none may be missing. -/
theorem parseVarint_cut {value : Int32} {front tail : Bytes}
    (h : appendVarint value = front ++ tail) (htail : tail ≠ []) : parseVarint front = none := by
  cases hparse : parseVarint front with
  | none => rfl
  | some p =>
    have hwhole := parseVarint_append hparse tail
    have hback := parseVarint_appendVarint value []
    rw [List.append_nil, h, hwhole] at hback
    have hnil := (Prod.mk.inj (Option.some.inj hback)).2
    exact absurd (List.append_eq_nil_iff.mp hnil).2 htail

namespace VM

variable {W H : Type} {vm : VM W H}

/-- `return false` of a read at the end of the code. -/
def FailsAtEof (step : Step W H) : Prop :=
  ∃ vm' doing, step = fail vm' (.unexpectedEof doing)

theorem getVarint_cut {value : Int32} {tail : Bytes} (h : appendVarint value = vm.rest ++ tail)
    (htail : tail ≠ []) (k : Int32 → VM W H → Step W H) : FailsAtEof (vm.getVarint k) := by
  refine ⟨{ vm with ip := vm.code.length }, "parsing varint", ?_⟩
  rw [getVarint, parseVarint_cut h htail]

/-- The length is there, but not the whole text. -/
theorem parseString_short {text middle : Bytes} (hshort : text.length < 2 ^ 31)
    (h : vm.rest = appendVarint (.ofNat text.length) ++ middle)
    (hcut : middle.length < text.length) (k : VM W H → Step W H) :
    FailsAtEof (vm.parseString k) := by
  have hint : (Int32.ofNat text.length).toInt = text.length := Int32.toInt_ofNat_of_lt hshort
  have hneg : ¬ Int32.ofNat text.length < 0 := by
    rw [Int32.lt_iff_toInt_lt, hint]
    simp
  have hrest : ({ vm with stringAcc := [] } : VM W H).rest =
      appendVarint (.ofNat text.length) ++ middle := h
  have hmiddle := rest_advance hrest
  rw [FailsAtEof, parseString, getVarint_eq hrest, if_neg hneg, hint, hmiddle,
    if_pos (by simpa using hcut)]
  exact ⟨_, _, rfl⟩

theorem parseString_cut {text tail : Bytes} (hshort : text.length < 2 ^ 31)
    (h : appendString text = vm.rest ++ tail) (htail : tail ≠ []) (k : VM W H → Step W H) :
    FailsAtEof (vm.parseString k) := by
  have hpos := List.length_pos_of_ne_nil htail
  rcases List.append_eq_append_iff.mp h with ⟨middle, hrest, htext⟩ | ⟨middle, hlength, hmiddle⟩
  · refine parseString_short hshort hrest ?_ k
    rw [htext, List.length_append]
    omega
  · by_cases hnil : middle = []
    · subst hnil
      rw [List.append_nil] at hlength
      rw [List.nil_append] at hmiddle
      exact parseString_short hshort (hlength.symm.trans (List.append_nil _).symm)
        (hmiddle ▸ hpos) k
    · have hrest : appendVarint (.ofNat text.length) =
          ({ vm with stringAcc := [] } : VM W H).rest ++ middle := hlength
      exact getVarint_cut hrest hnil _

/-- An integer or a text that is cut off is an error. -/
theorem readValue_cut {i : Primitive} {tail : Bytes} (hkind : i.kind ≠ .insn)
    (h : i.bytes = vm.rest ++ tail) (htail : tail ≠ []) (k : Value → VM W H → Step W H) :
    FailsAtEof (vm.readValue i.kind k) := by
  obtain ⟨value, hfits⟩ := i
  cases value with
  | insn b => exact absurd rfl hkind
  | varint value => exact getVarint_cut h htail _
  | text value => exact parseString_cut hfits h htail fun vm => k (.text vm.stringAcc) vm

/-- The primitives round-trip: what was appended for items is read back, each read taking the bytes
of its item, and an integer or a text of which bytes are missing is an error. -/
theorem primitives_round_trip :
    (∀ (vm : VM W H) (items : List Primitive) (tail : Bytes)
      (k : List (Value × Nat) → VM W H → Step W H),
      vm.rest = items.flatMap Primitive.bytes ++ tail →
      vm.readValues (items.map Primitive.kind) k =
        k (items.map fun i => (i.value, i.bytes.length)) (vm.pastAll items)) ∧
    ∀ (vm : VM W H) (i : Primitive) (tail : Bytes) (k : Value → VM W H → Step W H), i.kind ≠ .insn →
      i.bytes = vm.rest ++ tail → tail ≠ [] → FailsAtEof (vm.readValue i.kind k) :=
  ⟨fun _ _ _ k h => readValues_eq h k, fun _ _ _ k hkind h htail => readValue_cut hkind h htail k⟩

/-- An instruction, an integer of two bytes and a text with a zero byte, with one more byte behind
them. -/
def threeItems : List Primitive :=
  [⟨.insn 13, trivial⟩, ⟨.varint (-3271), trivial⟩, ⟨.text [0, 65], by decide⟩]

/-- A machine in front of these items. -/
def beforeItems : VM Unit Unit :=
  { fresh () with blocks := [threeItems.flatMap Primitive.bytes ++ [0x80]] }

theorem beforeItems_read : ∃ vm, beforeItems.readValues [.insn, .varint, .text]
    (fun values vm => if values = [(.insn 13, 1), (.varint (-3271), 2), (.text [0, 65], 3)]
      then .inl vm else .inr (.undefined, vm)) = .inl vm ∧ vm.rest = [0x80] ∧
    FailsAtEof (vm.readValue .varint fun _ vm => .inl vm) := by
  have hread := primitives_round_trip.1 beforeItems threeItems [0x80]
    (fun values vm => if values = [(.insn 13, 1), (.varint (-3271), 2), (.text [0, 65], 3)]
      then .inl vm else .inr (.undefined, vm)) rfl
  refine ⟨beforeItems.pastAll threeItems, hread.trans (if_pos (by decide)), rfl, ?_⟩
  exact primitives_round_trip.2 (beforeItems.pastAll threeItems) ⟨.varint 64, trivial⟩ [1] _
    (by decide) (by decide) (by decide)

end VM

end OpenmrnCue.Logic
