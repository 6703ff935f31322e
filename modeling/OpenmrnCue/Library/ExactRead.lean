import Mathlib.Data.Nat.Notation

/-! Readers that ask for a number of bytes at a time, go on when they have all of them, and never
ask for none.  The bytes come in pieces.  How they are cut makes no difference: a piece does what
its bytes do one by one. -/

namespace ExactRead

/-- How many bytes a state asks for, and the state that follows when it has them. -/
structure Reader (σ β : Type*) where
  want : σ → ℕ
  next : σ → List β → σ
  want_pos : ∀ s, 0 < want s

variable {σ β : Type*}

/-- A state, with the bytes that it has so far. -/
structure Pending (R : Reader σ β) where
  state : σ
  got : List β
  lt : got.length < R.want state

variable {R : Reader σ β}

/-- A state that has got nothing yet. -/
def Pending.start (R : Reader σ β) (s : σ) : Pending R := ⟨s, [], R.want_pos s⟩

namespace Pending

/-- How many bytes are missing. -/
def missing (p : Pending R) : ℕ := R.want p.state - p.got.length

theorem missing_pos (p : Pending R) : 0 < p.missing := Nat.sub_pos_of_lt p.lt

/-- A piece is read, if no more than what is missing. -/
def read (p : Pending R) (piece : List β) : Pending R :=
  if h : p.got.length + piece.length < R.want p.state then
    ⟨p.state, p.got ++ piece, by rwa [List.length_append]⟩
  else start R (R.next p.state (p.got ++ piece))

/-- Bytes are read one by one. -/
def feedAll (p : Pending R) (bytes : List β) : Pending R :=
  bytes.foldl (fun p b => p.read [b]) p

variable {p : Pending R} {bytes piece : List β} {s : σ}

@[simp] theorem feedAll_nil : p.feedAll [] = p := rfl

theorem feedAll_cons {b : β} : p.feedAll (b :: bytes) = (p.read [b]).feedAll bytes := rfl

theorem feedAll_append : p.feedAll (piece ++ bytes) = (p.feedAll piece).feedAll bytes :=
  List.foldl_append

theorem read_nil : p.read [] = p := by
  obtain ⟨s, got, h⟩ := p
  simp [read, h]

/-- A piece does what its bytes do. -/
theorem feedAll_of_le (h : piece.length ≤ p.missing) : p.feedAll piece = p.read piece := by
  induction piece generalizing p with
  | nil => exact read_nil.symm
  | cons b piece ih =>
    obtain ⟨s, got, hgot⟩ := p
    simp only [missing, List.length_cons] at h
    rw [feedAll_cons]
    by_cases hlast : got.length + 1 < R.want s
    · have hread : read ⟨s, got, hgot⟩ [b] = ⟨s, got ++ [b], by simpa using hlast⟩ := dif_pos hlast
      rw [hread, ih (by simp only [missing, List.length_append, List.length_singleton]; omega)]
      simp only [read, List.length_append, List.length_cons, List.length_nil, List.append_assoc,
        List.singleton_append, Nat.add_assoc, Nat.add_comm 1]
    · -- The byte is the last one that is missing.
      obtain rfl : piece = [] := List.eq_nil_of_length_eq_zero (by omega)
      rfl

/-- Exactly the bytes that a state asks for. -/
theorem feedAll_start (h : bytes.length = R.want s) :
    (start R s).feedAll bytes = start R (R.next s bytes) := by
  rw [feedAll_of_le (by simp [missing, start, h])]
  exact dif_neg (by simp [start, h])

end Pending

end ExactRead
