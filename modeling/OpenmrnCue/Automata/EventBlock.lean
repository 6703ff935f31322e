import Mathlib
import OpenmrnCue.Automata.Preamble
import OpenmrnCue.Library.Regions
import OpenmrnCue.Library.Trace

/-! The event blocks of `variables.hxx` and their allocators, which hand out the bits of a block as
variables.  An allocator may hand out a part of its entries as an allocator of its own. -/

namespace OpenmrnCue.Automata

/-! ## Allocators -/

/-- The result of `int` arithmetic, where what overflows wraps around. -/
def toInt (n : ℤ) : ℤ := n.bmod (2 ^ 32)

/-- `EventBlock::Allocator`, with the entry that it starts at and the number of the allocator that
it has been obtained from. -/
structure Allocator where
  start : ℤ
  nextEntry : ℤ
  stop : ℤ
  parent : Option Nat
deriving DecidableEq, Repr

namespace Allocator

variable (x : Allocator)

/-- `remaining`. -/
def remaining : ℤ := toInt (x.stop - x.nextEntry)

/-- `Reserve`, which dies with a report of an overrun. -/
def reserve (count : ℤ) : Option (ℤ × Allocator) :=
  if x.stop < toInt (x.nextEntry + count) then none
  else some (x.nextEntry, { x with nextEntry := toInt (x.nextEntry + count) })

/-- What `Align` makes of `next_entry_`. -/
def aligned (alignment : ℤ) : ℤ :=
  toInt ((toInt (x.nextEntry + (alignment - 1))).tdiv alignment * alignment)

/-- `Align`. -/
def align (alignment : ℤ) : Allocator := { x with nextEntry := x.aligned alignment }

end Allocator

/-- `BlockVariable`: the number of its allocator and its `arg`. -/
structure BlockVariable where
  allocator : Nat
  arg : Nat
deriving DecidableEq, Repr

/-- `EventBlock`, with the allocators and variables obtained from it. -/
structure EventBlock where
  eventBase : UInt64
  size : Nat
  allocators : List Allocator
  bits : List BlockVariable
deriving DecidableEq, Repr

namespace EventBlock

variable (b : EventBlock)

/-- The constructor. -/
def init (eventBase : UInt64) : EventBlock := ⟨eventBase, 1, [⟨0, 0, 8 <<< 8, none⟩], []⟩

/-- `SetMinSize`: `size_` has 16 bits, and the argument 64. -/
def setMinSize (arg : ℤ) : Nat :=
  if b.size ≤ (arg % 2 ^ 64).toNat then ((arg % 2 ^ 64).toNat + 1) % 2 ^ 16 else b.size

/-- The definition that `Render` renders. -/
def definition : Variable := .eventBlock b.eventBase b.size

/-- The size that the arguments of the definition say. -/
def renderedSize : Nat :=
  ((b.definition.arg1 &&& 0b11111).toNat &&& 7) <<< 8 ||| b.definition.arg2.toNat

/-- `event_on` of a variable. -/
def eventOn (v : BlockVariable) : UInt64 := b.eventBase + UInt64.ofNat (v.arg * 2)

/-- `event_off` of a variable. -/
def eventOff (v : BlockVariable) : UInt64 := b.eventBase + UInt64.ofNat (v.arg * 2) + 1

/-- A call of an allocator, by its number. -/
inductive Call where
  | allocate (allocator : Nat)
  | block (allocator count alignment : Nat)
  | forward (allocator reserved : Nat)
  | reserve (allocator count : Nat)
deriving DecidableEq, Repr

/-- `Allocate` of a variable: the constructor of `BlockVariable`. -/
def allocateVariable (i : Nat) : Option EventBlock := do
  let x ← b.allocators[i]?
  let (arg, x) ← x.reserve 1
  some { b with
    size := b.setMinSize arg
    allocators := b.allocators.set i x
    bits := b.bits ++ [⟨i, (arg % 2 ^ 16).toNat⟩] }

/-- `Allocate` of an allocator.  An alignment of 0 is a division by zero. -/
def allocateBlock (i : Nat) (count alignment : ℤ) : Option EventBlock := do
  let x ← b.allocators[i]?
  if alignment = 0 then none
  else
    let (first, x) ← (x.align alignment).reserve count
    some { b with
      allocators := b.allocators.set i x ++ [⟨first, first, toInt (first + count), some i⟩] }

/-- `Forward`. -/
def forward (i : Nat) (reserved : ℤ) : Option EventBlock := do
  let x ← b.allocators[i]?
  if x.remaining < reserved then none
  else b.allocateBlock i (toInt (x.remaining - reserved)) 1

/-- `Reserve`. -/
def reserve (i : Nat) (count : ℤ) : Option EventBlock := do
  let x ← b.allocators[i]?
  let (_, x) ← x.reserve count
  some { b with allocators := b.allocators.set i x }

/-- What a call does, if it does not die. -/
def step : Call → Option EventBlock
  | .allocate i => b.allocateVariable i
  | .block i count alignment => b.allocateBlock i count alignment
  | .forward i reserved => b.forward i reserved
  | .reserve i count => b.reserve i count

/-- The allocators that an allocator is nested in. -/
def Encloses : Nat → Nat → Prop :=
  Relation.ReflTransGen fun i p => ∃ x, b.allocators[i]? = some x ∧ x.parent = some p

/-- No variable is allocated at the last entry of the block, and no `int` overflows. -/
def Fits : Call → Prop
  | .allocate i => ∀ x ∈ b.allocators[i]?, x.nextEntry ≠ 2047
  | .block i count alignment => ∀ x ∈ b.allocators[i]?,
    x.nextEntry + (alignment - 1) < 2 ^ 31 ∧ x.aligned alignment + count < 2 ^ 31
  | .forward _ _ => True
  | .reserve i count => ∀ x ∈ b.allocators[i]?, x.nextEntry + count < 2 ^ 31

instance (call : Call) : Decidable (b.Fits call) := by
  cases call <;> unfold Fits <;> infer_instance

end EventBlock

/-! ## What a call does -/

theorem toInt_eq {n : ℤ} (hpos : 0 ≤ n) (hsmall : n < 2 ^ 31) : toInt n = n := by
  apply Int.bmod_eq_of_le <;> omega

namespace Allocator

variable {x y : Allocator} {first count alignment : ℤ}

/-- The cursor is between the ends. -/
structure Formed (x : Allocator) : Prop where
  start_nonneg : 0 ≤ x.start
  start_le : x.start ≤ x.nextEntry
  le_stop : x.nextEntry ≤ x.stop
  stop_le : x.stop ≤ 2048

theorem reserve_eq_some (hpos : 0 ≤ x.nextEntry) (hcount : 0 ≤ count)
    (hfits : x.nextEntry + count < 2 ^ 31) (h : x.reserve count = some (first, y)) :
    first = x.nextEntry ∧ x.nextEntry + count ≤ x.stop ∧
      y = { x with nextEntry := x.nextEntry + count } := by
  rw [reserve, toInt_eq (by omega) hfits] at h
  split at h
  · cases h
  · next hle =>
    cases h
    exact ⟨rfl, by omega, rfl⟩

/-- Aligning moves the cursor forward, by less than the alignment. -/
theorem le_aligned (hpos : 0 ≤ x.nextEntry) (halignment : 0 < alignment)
    (hfits : x.nextEntry + (alignment - 1) < 2 ^ 31) : x.nextEntry ≤ x.aligned alignment := by
  have hle := Int.ediv_mul_le (x.nextEntry + (alignment - 1)) (Int.ne_of_gt halignment)
  have hlt := Int.lt_ediv_add_one_mul_self (x.nextEntry + (alignment - 1)) halignment
  rw [Int.add_mul, Int.one_mul] at hlt
  rw [aligned, toInt_eq (by omega) hfits, Int.tdiv_eq_ediv_of_nonneg (by omega),
    toInt_eq (by omega) (by omega)]
  omega

theorem Formed.remaining (h : x.Formed) : x.remaining = x.stop - x.nextEntry := by
  obtain ⟨hstart, hle, hstop, hend⟩ := h
  exact toInt_eq (by omega) (by omega)

end Allocator

namespace EventBlock

variable {b b' : EventBlock}

/-- What a call makes of a block: an allocator loses its first entries, which it may hand out as an
allocator or, if it is one entry, as a variable. -/
inductive Carves (b b' : EventBlock) : Prop
  | skip (i : Nat) (x : Allocator) (n : ℤ) (hx : b.allocators[i]? = some x)
      (hle : x.nextEntry ≤ n) (hstop : n ≤ x.stop)
      (heq : b' = ⟨b.eventBase, b.size, b.allocators.set i { x with nextEntry := n }, b.bits⟩)
  | block (i : Nat) (x : Allocator) (first n : ℤ) (hx : b.allocators[i]? = some x)
      (hfirst : x.nextEntry ≤ first) (hle : first ≤ n) (hstop : n ≤ x.stop)
      (heq : b' = ⟨b.eventBase, b.size,
        b.allocators.set i { x with nextEntry := n } ++ [⟨first, first, n, some i⟩], b.bits⟩)
  | bit (i : Nat) (x : Allocator) (hx : b.allocators[i]? = some x) (hlt : x.nextEntry < x.stop)
      (hlast : x.nextEntry ≠ 2047)
      (heq : b' = ⟨b.eventBase, b.setMinSize x.nextEntry,
        b.allocators.set i { x with nextEntry := x.nextEntry + 1 },
        b.bits ++ [⟨i, (x.nextEntry % 2 ^ 16).toNat⟩]⟩)

theorem allocateBlock_carves {i : Nat} {x : Allocator} {count alignment : ℤ}
    (hx : b.allocators[i]? = some x) (hpos : 0 ≤ x.nextEntry) (hcount : 0 ≤ count)
    (halignment : 0 ≤ alignment) (hsmall : x.nextEntry + (alignment - 1) < 2 ^ 31)
    (hfits : x.aligned alignment + count < 2 ^ 31)
    (h : b.allocateBlock i count alignment = some b') : b.Carves b' := by
  simp only [allocateBlock, hx, Option.bind_eq_bind, Option.bind_some,
    Option.ite_none_left_eq_some, Option.bind_eq_some_iff] at h
  obtain ⟨hne, ⟨first, y⟩, hreserve, heq⟩ := h
  have hle : x.nextEntry ≤ (x.align alignment).nextEntry :=
    Allocator.le_aligned hpos (by omega) hsmall
  obtain ⟨rfl, hstop, rfl⟩ :=
    Allocator.reserve_eq_some (hpos.trans hle) hcount hfits hreserve
  have hsum : toInt ((x.align alignment).nextEntry + count) =
    (x.align alignment).nextEntry + count := toInt_eq (by omega) hfits
  rw [hsum] at heq
  cases heq
  exact .block i x _ _ hx hle (by omega) hstop rfl

theorem step_carves {call : Call} (hformed : ∀ (i : Nat) (x : Allocator),
    b.allocators[i]? = some x → x.Formed)
    (hfits : b.Fits call) (h : b.step call = some b') : b.Carves b' := by
  cases call with
  | allocate i =>
    simp only [step, allocateVariable, Option.bind_eq_bind, Option.bind_eq_some_iff] at h
    obtain ⟨x, hx, ⟨first, y⟩, hreserve, heq⟩ := h
    obtain ⟨hstart, hle, hstop, hend⟩ := hformed i x hx
    obtain ⟨rfl, hlt, rfl⟩ :=
      Allocator.reserve_eq_some (by omega) (by omega) (by omega) hreserve
    cases heq
    exact .bit i x hx (by omega) (hfits x hx) rfl
  | block i count alignment =>
    have hblock : b.allocateBlock i count alignment = some b' := h
    obtain ⟨x, hx, -⟩ := Option.bind_eq_some_iff.mp hblock
    obtain ⟨hstart, hle, -, -⟩ := hformed i x hx
    obtain ⟨hsmall, hcount⟩ := hfits x hx
    exact allocateBlock_carves hx (by omega) (by omega) (by omega) hsmall hcount hblock
  | forward i reserved =>
    simp only [step, forward, Option.bind_eq_bind, Option.bind_eq_some_iff,
      Option.ite_none_left_eq_some] at h
    obtain ⟨x, hx, hreserved, hblock⟩ := h
    have hx' := hformed i x hx
    rw [hx'.remaining] at hreserved hblock
    obtain ⟨hstart, hle, hstop, hend⟩ := hx'
    rw [toInt_eq (by omega) (by omega)] at hblock
    have haligned : x.aligned 1 = x.nextEntry := by
      have hcursor : toInt x.nextEntry = x.nextEntry := toInt_eq (by omega) (by omega)
      rw [Allocator.aligned, Int.sub_self, Int.add_zero, Int.tdiv_one, Int.mul_one, hcursor,
        hcursor]
    exact allocateBlock_carves hx (by omega) (by omega) (by omega) (by omega)
      (by rw [haligned]; omega) hblock
  | reserve i count =>
    simp only [step, reserve, Option.bind_eq_bind, Option.bind_eq_some_iff] at h
    obtain ⟨x, hx, ⟨first, y⟩, hreserve, heq⟩ := h
    obtain ⟨hstart, hle, hstop, hend⟩ := hformed i x hx
    obtain ⟨rfl, hcount, rfl⟩ :=
      Allocator.reserve_eq_some (by omega) (by omega) (hfits x hx) hreserve
    cases heq
    exact .skip i x _ hx (by omega) hcount rfl

/-! ### The entries that are left -/

/-- The entries that an allocator can still hand out. -/
def free (allocators : List Allocator) (i : Nat) : Set ℤ :=
  { n | ∃ x, allocators[i]? = some x ∧ x.nextEntry ≤ n ∧ n < x.stop }

section Advance

variable {allocators : List Allocator} {i j : Nat} {x y : Allocator} {n : ℤ}

theorem free_eq (hx : allocators[i]? = some x) :
    free allocators i = Set.Ico x.nextEntry x.stop := by
  ext k
  constructor
  · rintro ⟨x', hx', hk⟩
    rw [hx] at hx'
    cases hx'
    exact hk
  · exact fun hk => ⟨x, hx, hk⟩

/-- Where the cursor of an allocator moves, the other allocators stay. -/
theorem getElem?_advance (hx : allocators[i]? = some x)
    (hy : (allocators.set i { x with nextEntry := n })[j]? = some y) :
    (j = i ∧ y = { x with nextEntry := n }) ∨ (j ≠ i ∧ allocators[j]? = some y) := by
  have hi := (List.getElem?_eq_some_iff.mp hx).1
  by_cases hj : j = i
  · subst hj
    rw [List.getElem?_set_self hi] at hy
    cases hy
    exact .inl ⟨rfl, rfl⟩
  · rw [List.getElem?_set_ne (Ne.symm hj)] at hy
    exact .inr ⟨hj, hy⟩

/-- No allocator changes its place. -/
theorem exists_advance (hx : allocators[i]? = some x) (n : ℤ) (hy : allocators[j]? = some y) :
    ∃ y', (allocators.set i { x with nextEntry := n })[j]? = some y' ∧
      y'.start = y.start ∧ y'.stop = y.stop := by
  have hi := (List.getElem?_eq_some_iff.mp hx).1
  by_cases hj : j = i
  · subst hj
    rw [hx] at hy
    cases hy
    exact ⟨_, List.getElem?_set_self hi, rfl, rfl⟩
  · exact ⟨y, by rw [List.getElem?_set_ne (Ne.symm hj), hy], rfl, rfl⟩

/-- The entries are inside an allocator. -/
def Holds (allocators : List Allocator) (i : Nat) (first last : ℤ) : Prop :=
  ∃ x, allocators[i]? = some x ∧ x.start ≤ first ∧ last ≤ x.stop

theorem Holds.advance {first last : ℤ} (h : Holds allocators j first last)
    (hx : allocators[i]? = some x) (n : ℤ) :
    Holds (allocators.set i { x with nextEntry := n }) j first last := by
  obtain ⟨y, hy, hstart, hstop⟩ := h
  obtain ⟨y', hy', hsame, hsame'⟩ := exists_advance hx n hy
  exact ⟨y', hy', hsame ▸ hstart, hsame' ▸ hstop⟩

theorem Holds.append {first last : ℤ} (h : Holds allocators j first last) (y : Allocator) :
    Holds (allocators ++ [y]) j first last := by
  obtain ⟨x, hx, hin⟩ := h
  exact ⟨x, by rw [List.getElem?_append_left (List.getElem?_eq_some_iff.mp hx).1, hx], hin⟩

/-- Every allocator is inside the one that it has been obtained from. -/
structure Nested (allocators : List Allocator) : Prop where
  formed : ∀ (i : Nat) (x : Allocator), allocators[i]? = some x → x.Formed
  parents : ∀ (i p : Nat) (x : Allocator), allocators[i]? = some x → x.parent = some p →
    Holds allocators p x.start x.stop

theorem Nested.advance (h : Nested allocators) (hx : allocators[i]? = some x)
    (hle : x.nextEntry ≤ n) (hstop : n ≤ x.stop) :
    Nested (allocators.set i { x with nextEntry := n }) := by
  have hplace := h.formed i x hx
  refine ⟨fun j y hy => ?_, fun j p y hy hp => ?_⟩
  · rcases getElem?_advance hx hy with ⟨-, rfl⟩ | ⟨-, hy⟩
    · exact ⟨hplace.start_nonneg, hplace.start_le.trans hle, hstop, hplace.stop_le⟩
    · exact h.formed j y hy
  · rcases getElem?_advance hx hy with ⟨-, rfl⟩ | ⟨-, hy⟩
    · exact (h.parents i p x hx hp).advance hx n
    · exact (h.parents j p y hy hp).advance hx n

theorem Nested.append (h : Nested allocators) (hy : y.Formed)
    (hparent : ∀ p, y.parent = some p → Holds allocators p y.start y.stop) :
    Nested (allocators ++ [y]) := by
  have hcases : ∀ (j : Nat) (z : Allocator), (allocators ++ [y])[j]? = some z →
      allocators[j]? = some z ∨ z = y := by
    intro j z hz
    rw [List.getElem?_append] at hz
    split at hz
    · exact .inl hz
    · exact .inr (List.mem_singleton.mp (List.mem_of_getElem? hz))
  refine ⟨fun j z hz => ?_, fun j p z hz hp => ?_⟩
  · rcases hcases j z hz with hz | rfl
    · exact h.formed j z hz
    · exact hy
  · rcases hcases j z hz with hz | rfl
    · exact (h.parents j p z hz hp).append y
    · exact (hparent p hp).append z

theorem free_advance (hx : allocators[i]? = some x) (n : ℤ) :
    free (allocators.set i { x with nextEntry := n }) =
      Function.update (free allocators) i (Set.Ico n x.stop) := by
  have hi := (List.getElem?_eq_some_iff.mp hx).1
  funext j
  by_cases hj : j = i
  · subst hj
    rw [Function.update_self, free_eq (List.getElem?_set_self hi)]
  · rw [Function.update_of_ne hj, free, free, List.getElem?_set_ne (Ne.symm hj)]

theorem free_append (allocators : List Allocator) (x : Allocator) : free (allocators ++ [x]) =
    Function.update (free allocators) allocators.length (Set.Ico x.nextEntry x.stop) := by
  funext j
  by_cases hj : j = allocators.length
  · subst hj
    rw [Function.update_self, free_eq (x := x) (by simp)]
  · rw [Function.update_of_ne hj, free, free]
    rcases Nat.lt_or_ge j allocators.length with hlt | hge
    · rw [List.getElem?_append_left hlt]
    · rw [List.getElem?_eq_none (by simp; omega), List.getElem?_eq_none hge]

end Advance

/-- The size is enough for the variables, and fits into the definition; the allocators are nested,
their variables are inside them, and nothing is handed out twice. -/
structure Formed (b : EventBlock) : Prop where
  size : b.size < 2048
  nested : Nested b.allocators
  sized : ∀ v ∈ b.bits, v.arg < b.size
  inside : ∀ v ∈ b.bits, Holds b.allocators v.allocator v.arg (v.arg + 1)
  apart : Regions.Apart (free b.allocators) (b.bits.map fun v => (v.arg : ℤ))

theorem formed_init (eventBase : UInt64) : (init eventBase).Formed := by
  have honly : ∀ (i : Nat) (x : Allocator), (init eventBase).allocators[i]? = some x →
      i = 0 ∧ x = ⟨0, 0, 8 <<< 8, none⟩ := by
    intro i x hx
    cases i with
    | zero =>
      cases hx
      exact ⟨rfl, rfl⟩
    | succ i => cases hx
  refine ⟨show 1 < 2048 by decide, ⟨fun i x hx => ?_, fun i p x hx hp => ?_⟩, by simp [init],
    by simp [init], ⟨fun i j hne => ?_, by simp [init], by simp [init]⟩⟩
  · obtain ⟨-, rfl⟩ := honly i x hx
    exact ⟨by decide, by decide, by decide, by decide⟩
  · obtain ⟨-, rfl⟩ := honly i x hx
    cases hp
  · refine Set.disjoint_left.mpr fun n ⟨x, hx, _⟩ ⟨y, hy, _⟩ => hne ?_
    exact (honly i x hx).1.trans (honly j y hy).1.symm

theorem setMinSize_eq {n : ℤ} (hpos : 0 ≤ n) (hsmall : n < 2047) :
    b.setMinSize n = max b.size (n.toNat + 1) := by
  have hmod : n % 2 ^ 64 = n := Int.emod_eq_of_lt hpos (by omega)
  rw [setMinSize, hmod, Nat.mod_eq_of_lt (by omega)]
  split <;> omega

/-- A call keeps a block in order. -/
theorem Formed.carves (h : b.Formed) (hcarves : b.Carves b') : b'.Formed := by
  cases hcarves with
  | skip i x n hx hle hstop heq =>
    subst heq
    refine ⟨h.size, h.nested.advance hx hle hstop, h.sized,
      fun v hv => (h.inside v hv).advance hx n, ?_⟩
    simp only [free_advance hx n]
    refine h.apart.shrink ?_
    rw [free_eq hx]
    exact Set.Ico_subset_Ico_left hle
  | block i x first n hx hfirst hle hstop heq =>
    subst heq
    have hplace := h.nested.formed i x hx
    have hnested := h.nested.advance hx (hfirst.trans hle) hstop
    have hin : Holds b.allocators i first n :=
      ⟨x, hx, hplace.start_le.trans hfirst, hstop⟩
    refine ⟨h.size, hnested.append ⟨?_, le_rfl, hle, hstop.trans hplace.stop_le⟩ ?_, h.sized,
      fun v hv => ((h.inside v hv).advance hx n).append _, ?_⟩
    · exact hplace.start_nonneg.trans (hplace.start_le.trans hfirst)
    · rintro p hp
      cases hp
      exact hin.advance hx n
    · simp only [free_append, free_advance hx n]
      refine h.apart.split ?_ ?_ ?_ _
      · rw [free_eq hx]
        exact Set.Ico_subset_Ico_left (hfirst.trans hle)
      · rw [free_eq hx]
        exact Set.Ico_subset_Ico hfirst hstop
      · exact Set.disjoint_left.mpr fun k hk hk' => absurd hk.1 (not_le.mpr hk'.2)
  | bit i x hx hlt hlast heq =>
    subst heq
    obtain ⟨hstart, hle, hstop, hend⟩ := h.nested.formed i x hx
    obtain ⟨arg, harg⟩ := Int.eq_ofNat_of_zero_le (hstart.trans hle)
    have hsize : b.setMinSize x.nextEntry = max b.size (arg + 1) := by
      rw [setMinSize_eq (by omega) (by omega), harg, Int.toNat_natCast]
    have hmod : (x.nextEntry % 2 ^ 16).toNat = arg := by omega
    simp only [hsize, hmod]
    refine ⟨?_, h.nested.advance hx (by omega) (by omega), fun v hv => ?_, fun v hv => ?_, ?_⟩
    · exact max_lt h.size (by omega)
    · rcases List.mem_append.mp hv with hv | hv
      · exact lt_max_of_lt_left (h.sized v hv)
      · obtain rfl := List.mem_singleton.mp hv
        exact lt_max_of_lt_right (Nat.lt_succ_self arg)
    · rcases List.mem_append.mp hv with hv | hv
      · exact (h.inside v hv).advance hx _
      · obtain rfl := List.mem_singleton.mp hv
        have hin : Holds b.allocators i arg (arg + 1) := ⟨x, hx, by omega, by omega⟩
        exact hin.advance hx _
    · rw [List.map_append, free_advance hx]
      have huse : x.nextEntry ∈ free b.allocators i := by
        rw [free_eq hx]
        exact ⟨le_rfl, hlt⟩
      rw [harg] at huse
      refine h.apart.use huse ?_ ?_
      · rw [free_eq hx]
        exact Set.Ico_subset_Ico_left (by omega)
      · intro hmem
        have hcursor : x.nextEntry + 1 ≤ (arg : ℤ) := hmem.1
        omega

theorem formed_run {eventBase : UInt64} {history : List Call}
    (heach : Trace.EachStep step (fun _ b call _ => b.Fits call) (init eventBase) history)
    (hrun : Trace.run step (init eventBase) history = some b) : b.Formed :=
  Trace.invariant (I := fun _ b => b.Formed) (formed_init eventBase)
    (fun _ _ _ _ _ hformed hfits hstep =>
      hformed.carves (step_carves hformed.nested.formed hfits hstep)) heach hrun

theorem Formed.encloses (h : b.Formed) {i p : Nat} {first last : ℤ} (hencloses : b.Encloses i p)
    (hin : Holds b.allocators i first last) : Holds b.allocators p first last := by
  induction hencloses with
  | refl => exact hin
  | tail _ hparent ih =>
    obtain ⟨x, hx, hp⟩ := hparent
    obtain ⟨x', hx', hstart, hstop⟩ := ih
    rw [hx] at hx'
    cases hx'
    obtain ⟨y, hy, hstart', hstop'⟩ := h.nested.parents _ _ x hx hp
    exact ⟨y, hy, hstart'.trans hstart, hstop.trans hstop'⟩

theorem renderedSize_eq (hsize : b.size < 2048) : b.renderedSize = b.size := by
  obtain ⟨-, hhigh⟩ := blockSize_fields (b.size >>> 8) (by
    rw [Nat.shiftRight_eq_div_pow]
    omega)
  simp only [renderedSize, definition, Variable.arg1, Variable.arg2, hhigh, blockSize_join]

/-- The events of a variable. -/
def events (b : EventBlock) (v : BlockVariable) : List UInt64 := [b.eventOn v, b.eventOff v]

theorem events_disjoint {v w : BlockVariable} (hv : v.arg < 2048) (hw : w.arg < 2048)
    (hne : v.arg ≠ w.arg) : (b.events v).Disjoint (b.events w) := by
  have hevents : ∀ v : BlockVariable, v.arg < 2048 → ∀ e ∈ b.events v,
      ∃ n, e = b.eventBase + UInt64.ofNat n ∧ n / 2 = v.arg ∧ n < 4096 := by
    intro v hv e he
    simp only [events, List.mem_cons, List.not_mem_nil, or_false] at he
    rcases he with rfl | rfl
    · exact ⟨v.arg * 2, rfl, by omega, by omega⟩
    · refine ⟨v.arg * 2 + 1, ?_, by omega, by omega⟩
      rw [eventOff, UInt64.add_assoc, UInt64.ofNat_add]
      rfl
  intro e hev hew
  obtain ⟨m, rfl, hm, hmlt⟩ := hevents v hv e hev
  obtain ⟨n, heq, hn, hnlt⟩ := hevents w hw _ hew
  have hsame := congrArg UInt64.toNat ((UInt64.add_right_inj b.eventBase).mp heq)
  rw [UInt64.toNat_ofNat', UInt64.toNat_ofNat', Nat.mod_eq_of_lt (by omega),
    Nat.mod_eq_of_lt (by omega)] at hsame
  exact hne (by omega)

end EventBlock

/-- Variables have arguments of their own, inside the allocators around them, and events of their
own; the definition that is rendered has room for them; and nothing that rendering asserts of the
sizes and arguments fails. -/
theorem variables_share_no_event {eventBase : UInt64} {history : List EventBlock.Call}
    {b : EventBlock}
    (heach : Trace.EachStep EventBlock.step (fun _ b call _ => b.Fits call)
      (EventBlock.init eventBase) history)
    (hrun : Trace.run EventBlock.step (EventBlock.init eventBase) history = some b) :
    b.bits.Pairwise (fun v w => v.arg ≠ w.arg ∧ (b.events v).Disjoint (b.events w)) ∧
    (∀ v ∈ b.bits, ∀ p, b.Encloses v.allocator p →
      ∃ x, b.allocators[p]? = some x ∧ x.start ≤ v.arg ∧ v.arg < x.stop) ∧
    (∀ v ∈ b.bits, v.arg < b.renderedSize) ∧ b.definition.Admitted ∧
    ∀ v ∈ b.bits, ∀ (id : Nat) (localId : LocalVariable),
      (Action.actImportVariable ⟨id, v.arg⟩ localId).Admitted := by
  have hformed := EventBlock.formed_run heach hrun
  have hsmall : ∀ v ∈ b.bits, v.arg < 2048 := fun v hv =>
    (hformed.sized v hv).trans hformed.size
  refine ⟨?_, fun v hv p hp => ?_, fun v hv => ?_, hformed.size, fun v hv _ _ => hsmall v hv⟩
  · have hnodup := List.pairwise_map.mp hformed.apart.nodup
    refine hnodup.imp_of_mem fun {v w} hv hw hne => ?_
    have hne : v.arg ≠ w.arg := fun heq => hne (congrArg Nat.cast heq)
    exact ⟨hne, EventBlock.events_disjoint (hsmall v hv) (hsmall w hw) hne⟩
  · obtain ⟨x, hx, hstart, hstop⟩ := hformed.encloses hp (hformed.inside v hv)
    exact ⟨x, hx, hstart, by omega⟩
  · rw [EventBlock.renderedSize_eq hformed.size]
    exact hformed.sized v hv

/-- An allocator with two variables, and a variable in what the block forwards of the rest. -/
theorem nested_variables_share_no_event :
    ∃ b, Trace.run EventBlock.step (EventBlock.init 0x0501010114ff2000)
        [.block 0 13 4, .allocate 1, .forward 0 8, .allocate 1, .allocate 2] = some b ∧
      b.bits.map (·.arg) = [0, 1, 13] ∧ b.definition.Admitted := by
  have heach : Trace.EachStep EventBlock.step (fun _ b call _ => b.Fits call)
      (EventBlock.init 0x0501010114ff2000)
      [.block 0 13 4, .allocate 1, .forward 0 8, .allocate 1, .allocate 2] := by
    intro past call future t u heq hrun hstep
    exact of_decide_eq_true (Trace.eachStep_of_check (p := fun b call => decide (b.Fits call))
      (by decide) past call future t u heq hrun hstep)
  obtain ⟨b, hrun, hargs⟩ : ∃ b, Trace.run EventBlock.step (EventBlock.init 0x0501010114ff2000)
      [.block 0 13 4, .allocate 1, .forward 0 8, .allocate 1, .allocate 2] = some b ∧
      b.bits.map (·.arg) = [0, 1, 13] := ⟨_, rfl, by decide⟩
  exact ⟨b, hrun, hargs, (variables_share_no_event heach hrun).2.2.2.1⟩

/-- A variable at the last entry of the block: its size does not fit into the definition. -/
theorem last_entry_not_rendered :
    ∃ b, Trace.run EventBlock.step (EventBlock.init 0x0501010114ff2000)
        [.block 0 2047 1, .allocate 0] = some b ∧
      b.bits = [⟨0, 2047⟩] ∧ ¬ b.definition.Admitted ∧ b.renderedSize = 0 :=
  ⟨_, rfl, rfl, by decide, by decide⟩

end OpenmrnCue.Automata
