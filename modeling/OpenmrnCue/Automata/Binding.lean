import Mathlib.Logic.Function.Basic
import OpenmrnCue.Library.Trace

/-! Connections of track pieces: `Bind`, `Unbind`, `Validate`, `BindSequence` and `BindPairs` of
`control-logic`.  Each interface has a pointer to the interface that it is bound to.  `Bind` writes
the pointers of two interfaces, and leaves those of their former partners as they are. -/

namespace OpenmrnCue.Automata

/-- `binding_` and `has_binding_error_` of the interfaces. -/
structure Connections (I : Type) where
  binding : I → Option I
  hasBindingError : I → Bool

namespace Connections

variable {I : Type}

/-- Interfaces after their construction. -/
def unbound : Connections I := ⟨fun _ => none, fun _ => false⟩

/-- `CtrlTrackInterface::Validate`. -/
def validate (c : Connections I) (x : I) : Bool :=
  if c.hasBindingError x then false else (c.binding x).isSome

/-- Who is bound to whom is mutual. -/
def Symmetric (c : Connections I) : Prop := ∀ x y, c.binding x = some y → c.binding y = some x

variable [DecidableEq I] (c : Connections I)

def set (x : I) (partner : Option I) : Connections I :=
  { c with binding := Function.update c.binding x partner }

/-- `CtrlTrackInterface::Bind`. -/
def bind (x other : I) : Connections I := (c.set x (some other)).set other (some x)

/-- `CtrlTrackInterface::Unbind`, which dereferences the pointer of the interface. -/
def unbind (x : I) : Option (Connections I) :=
  match c.binding x with
  | some partner => some ((c.set partner none).set x none)
  | none => none

end Connections

/-- A call that changes pointers. -/
inductive Link (I : Type) where
  | bind (x other : I)
  | unbind (x : I)
deriving DecidableEq, Repr

/-- Calls from outside.  A `StraightTrackInterface` is the pair of its sides. -/
inductive BindCall (I : Type) where
  | bind (x other : I)
  | unbind (x : I)
  | bindSequence (before : Option I) (pieces : List (I × I)) (after : Option I)
  | bindPairs (pieces : List (I × I))
deriving Repr

section Calls

variable {I : Type}

/-- The calls of `Bind` in the loop of `BindSequence` and behind it.  Without pieces, the last one
is through `before`. -/
def bindSequence : Option I → List (I × I) → Option I → Option (List (Link I))
  | before, (sideA, sideB) :: pieces, after => do
    let rest ← bindSequence (some sideB) pieces after
    return (before.toList.map fun b => .bind b sideA) ++ rest
  | some before, [], some after => some [.bind before after]
  | none, [], some _ => none
  | _, [], none => some []

/-- `BindPairs`. -/
def bindPairs (pieces : List (I × I)) : List (Link I) := pieces.map fun p => .bind p.1 p.2

/-- What a call does, unless it dereferences a null pointer. -/
def BindCall.links : BindCall I → Option (List (Link I))
  | .bind x other => some [.bind x other]
  | .unbind x => some [.unbind x]
  | .bindSequence before pieces after => Automata.bindSequence before pieces after
  | .bindPairs pieces => some (Automata.bindPairs pieces)

variable [DecidableEq I]

def Connections.link (c : Connections I) : Link I → Option (Connections I)
  | .bind x other => some (c.bind x other)
  | .unbind x => c.unbind x

def Connections.call (c : Connections I) (call : BindCall I) : Option (Connections I) := do
  Trace.run Connections.link c (← call.links)

end Calls

/-! ### Former partners -/

section Clean

variable {I : Type} {c c' : Connections I} {x y : I}

/-- `Bind` finds both interfaces unbound, or bound to each other or to themselves. -/
def Connections.Clean (c : Connections I) : Link I → Prop
  | .bind x y =>
    (∀ z, c.binding x = some z → z = x ∨ z = y) ∧ ∀ z, c.binding y = some z → z = x ∨ z = y
  | .unbind _ => True

instance [DecidableEq I] : DecidablePred c.Clean
  | .bind x y => decidable_of_iff
      (((c.binding x).all fun z => decide (z = x ∨ z = y)) = true ∧
        ((c.binding y).all fun z => decide (z = x ∨ z = y)) = true)
      (by simp [Connections.Clean, Option.all_eq_true])
  | .unbind _ => isTrue trivial

theorem Connections.symmetric_unbound : (unbound : Connections I).Symmetric := by
  intro x y h
  cases h

variable [DecidableEq I]

/-- Each `Bind` of the call does. -/
def Connections.CleanCall (c : Connections I) (call : BindCall I) : Prop :=
  ∀ links, call.links = some links →
    Trace.EachStep Connections.link (fun _ c l _ => c.Clean l) c links

theorem Connections.binding_bind (c : Connections I) (x y z : I) :
    (c.bind x y).binding z = if z = y then some x else if z = x then some y else c.binding z := by
  simp [bind, set, Function.update_apply]

/-- The binding stays mutual exactly if no former partner is left behind. -/
theorem Connections.Symmetric.bind_iff (h : c.Symmetric) :
    (c.bind x y).Symmetric ↔ c.Clean (.bind x y) := by
  constructor
  · intro hafter
    -- A former partner still has the old pointer.
    have hpartner : ∀ u z, (u = x ∨ u = y) → c.binding u = some z → z = x ∨ z = y := by
      intro u z hu hz
      by_contra hother
      obtain ⟨hzx, hzy⟩ := not_or.mp hother
      have hold : (c.bind x y).binding z = some u := by
        rw [binding_bind, if_neg hzy, if_neg hzx]
        exact h u z hz
      have hnew := hafter z u hold
      rw [binding_bind] at hnew
      split at hnew
      · exact hzx (Option.some.inj hnew).symm
      · next huy =>
        rw [if_pos (hu.resolve_right huy)] at hnew
        exact hzy (Option.some.inj hnew).symm
    exact ⟨fun z => hpartner x z (.inl rfl), fun z => hpartner y z (.inr rfl)⟩
  · rintro ⟨hx, hy⟩ u v huv
    rw [binding_bind] at huv
    split at huv
    · next huy =>
      obtain rfl := Option.some.inj huv
      subst huy
      rw [binding_bind]
      by_cases hxy : x = u
      · rw [if_pos hxy, hxy]
      · rw [if_neg hxy, if_pos rfl]
    · next huy =>
      split at huv
      · next hux =>
        obtain rfl := Option.some.inj huv
        subst hux
        rw [binding_bind, if_pos rfl]
      · next hux =>
        have hvu := h u v huv
        have hvx : v ≠ x := by
          rintro rfl
          rcases hx u hvu with rfl | rfl
          · exact hux rfl
          · exact huy rfl
        have hvy : v ≠ y := by
          rintro rfl
          rcases hy u hvu with rfl | rfl
          · exact hux rfl
          · exact huy rfl
        rw [binding_bind, if_neg hvy, if_neg hvx]
        exact hvu

theorem Connections.Symmetric.unbind (h : c.Symmetric) (hunbind : c.unbind x = some c') :
    c'.Symmetric := by
  unfold Connections.unbind at hunbind
  split at hunbind
  · next partner hpartner =>
    cases hunbind
    have hbinding : ∀ z, ((c.set partner none).set x none).binding z =
        if z = x ∨ z = partner then none else c.binding z := by
      intro z
      by_cases hzx : z = x
      · simp [set, hzx]
      · by_cases hzp : z = partner <;> simp [set, Function.update_apply, hzx, hzp]
    intro u v huv
    rw [hbinding] at huv ⊢
    split at huv
    · cases huv
    · next hu =>
      have hvu := h u v huv
      rw [if_neg, hvu]
      rintro (rfl | rfl)
      · rw [hpartner] at hvu
        exact hu (.inr (Option.some.inj hvu).symm)
      · rw [h x v hpartner] at hvu
        exact hu (.inl (Option.some.inj hvu).symm)
  · cases hunbind

/-- A link that leaves no former partner behind keeps the binding mutual, and no other bind does. -/
theorem Connections.Symmetric.link_iff (h : c.Symmetric) {l : Link I}
    (hl : c.link l = some c') : c'.Symmetric ↔ c.Clean l := by
  cases l with
  | bind x y =>
    cases hl
    exact h.bind_iff
  | unbind x => exact ⟨fun _ => trivial, fun _ => h.unbind hl⟩

theorem Connections.Symmetric.call (h : c.Symmetric) {call : BindCall I}
    (hclean : c.CleanCall call) (hcall : c.call call = some c') : c'.Symmetric := by
  obtain ⟨links, hlinks, hrun⟩ := Option.bind_eq_some_iff.mp hcall
  exact Trace.invariant (I := fun _ c => c.Symmetric) h
    (fun _ _ _ _ _ hsym hl hstep => (hsym.link_iff hstep).mpr hl) (hclean links hlinks) hrun

end Clean

/-- Where each `Bind` finds both interfaces unbound, or bound to each other or to themselves, a
layout that validates is connected symmetrically. -/
theorem validated_symmetric {I : Type} [DecidableEq I] (calls : List (BindCall I))
    (hclean : Trace.EachStep Connections.call (fun _ c call _ => c.CleanCall call) .unbound
      calls) :
    Trace.Always Connections.call (fun _ c => (∀ x, c.validate x = true) → c.Symmetric) .unbound
      calls := by
  have hsymmetric : Trace.Always Connections.call (fun _ c => c.Symmetric) .unbound calls :=
    Trace.always Connections.symmetric_unbound
      (fun _ _ _ _ _ hsym hclean hcall => hsym.call hclean hcall) hclean
  exact fun past future c heq hrun _ => hsymmetric past future c heq hrun

/-- A sequence of one piece between two interfaces. -/
def pieceBetween : List (BindCall (Fin 4)) := [.bindSequence (some 0) [(1, 2)] (some 3)]

theorem pieceBetween_symmetric : ∃ c, Trace.run Connections.call .unbound pieceBetween = some c ∧
    (∀ x, c.validate x = true) ∧ c.Symmetric := by
  have hclean : Trace.EachStep Connections.call (fun _ c call _ => c.CleanCall call) .unbound
      pieceBetween := by
    rintro past call future c u heq hrun -
    obtain ⟨rfl, rfl⟩ : past = [] ∧ call = .bindSequence (some 0) [(1, 2)] (some 3) := by
      cases past with
      | nil =>
        cases heq
        exact ⟨rfl, rfl⟩
      | cons _ past => simp [pieceBetween] at heq
    cases hrun
    intro links hlinks
    cases hlinks
    have hcheck := Trace.eachStep_of_check (p := fun c l => decide (c.Clean l))
      (show Trace.check Connections.link _ (.unbound : Connections (Fin 4))
        [.bind 0 1, .bind 2 3] = true by decide)
    exact fun past l future t u heq hrun hstep =>
      of_decide_eq_true (hcheck past l future t u heq hrun hstep)
  obtain ⟨c, hrun, hvalid⟩ : ∃ c, Trace.run Connections.call .unbound pieceBetween = some c ∧
      ∀ x, c.validate x = true := ⟨_, rfl, by decide⟩
  exact ⟨c, hrun, hvalid,
    validated_symmetric pieceBetween hclean pieceBetween [] c (by simp) hrun hvalid⟩

/-- Three interfaces, one of which is bound twice. -/
def boundTwice : List (BindCall (Fin 3)) := [.bind 0 1, .bind 2 1]

/-- All three validate, but the first one still points at a partner that points elsewhere. -/
theorem boundTwice_asymmetric : ∃ c, Trace.run Connections.call .unbound boundTwice = some c ∧
    (∀ x, c.validate x = true) ∧ c.binding 0 = some 1 ∧ c.binding 1 = some 2 ∧ ¬ c.Symmetric := by
  refine ⟨_, rfl, by decide, by decide, by decide, fun hsymmetric => ?_⟩
  have hback := hsymmetric 0 1 (by decide)
  revert hback
  decide

end OpenmrnCue.Automata
