import Mathlib.Data.List.Nodup
import Mathlib.Logic.Function.Basic
import Mathlib.Tactic.Tauto

/-! The requests for the routes of a track piece, and what a reset makes of them.  The directions of
the piece are reset one after the other.  For each, the reset clears the route, the lock and the
request, and then the answer of the neighbour is taken if the request is pending. -/

namespace OpenmrnCue.Automata

/-- A direction of a piece: the side where a train comes in, the side where it goes out, and the
route between them. -/
structure RouteDirection (S R : Type) where
  before : S
  after : S
  route : R
deriving DecidableEq, Repr

/-- The routes that are set and pending, the lock, the requests at the sides, and the answers of the
neighbours. -/
structure RouteRequests (S R : Type) where
  set : R → Bool
  pending : R → Bool
  inProgress : Bool
  trying : S → Bool
  failure : Nat → Bool
  success : Nat → Bool

namespace RouteRequests

variable {S R : Type} [DecidableEq S] [DecidableEq R]

/-- The reset of a direction. -/
def clear (q : RouteRequests S R) (d : RouteDirection S R) : RouteRequests S R :=
  { q with
    set := Function.update q.set d.route false
    inProgress := false
    trying := Function.update q.trying d.after false }

/-- An answer of the neighbour `n` for the direction. -/
def answered (q : RouteRequests S R) (d : RouteDirection S R) (n : Nat) : RouteRequests S R :=
  { q with
    pending := Function.update q.pending d.route false
    failure := Function.update q.failure n false
    success := Function.update q.success n false
    inProgress := false }

/-- The answer to a pending request is taken.  A refusal goes first. -/
def answer (q : RouteRequests S R) (d : RouteDirection S R) (n : Nat) : RouteRequests S R :=
  if q.pending d.route && q.failure n then q.answered d n
  else if q.pending d.route && q.success n then
    { q.answered d n with set := Function.update q.set d.route true }
  else q

/-- What the block of a direction does while the routes are reset and there is no request. -/
def reset (target : S → Nat) (q : RouteRequests S R) (d : RouteDirection S R) :
    RouteRequests S R :=
  (q.clear d).answer d (target d.after)

/-- No route is set or pending, and there is no request. -/
structure Idle (q : RouteRequests S R) : Prop where
  set : ∀ r, q.set r = false
  pending : ∀ r, q.pending r = false
  inProgress : q.inProgress = false
  trying : ∀ s, q.trying s = false

/-- Nothing is set that no direction is for. -/
structure Unused (q : RouteRequests S R) (ds : List (RouteDirection S R)) : Prop where
  set : ∀ r, r ∉ ds.map (·.route) → q.set r = false
  pending : ∀ r, r ∉ ds.map (·.route) → q.pending r = false
  trying : ∀ s, s ∉ ds.map (·.after) → q.trying s = false

/-- Every pending request has been refused, by a neighbour of its own. -/
structure Refused (target : S → Nat) (q : RouteRequests S R) (ds : List (RouteDirection S R)) :
    Prop where
  failure : ∀ d ∈ ds, q.pending d.route = true → q.failure (target d.after) = true
  apart : ds.Pairwise fun d d' => q.pending d.route = true → q.pending d'.route = true →
    target d.after ≠ target d'.after

section Reset

variable {target : S → Nat} {q : RouteRequests S R} {d : RouteDirection S R}

/-- What the reset of a direction finds: a refusal, a grant, or no answer to a pending request. -/
theorem reset_cases (target : S → Nat) (q : RouteRequests S R) (d : RouteDirection S R) :
    (q.pending d.route = true ∧ q.failure (target d.after) = true ∧
      q.reset target d = (q.clear d).answered d (target d.after)) ∨
    (q.pending d.route = true ∧ q.failure (target d.after) = false ∧
      q.success (target d.after) = true ∧ q.reset target d =
        { (q.clear d).answered d (target d.after) with
          set := Function.update (q.clear d).set d.route true }) ∨
    ((q.pending d.route = true → q.failure (target d.after) = false) ∧
      (q.pending d.route = true → q.success (target d.after) = false) ∧
      q.reset target d = q.clear d) := by
  have hpending : (q.clear d).pending = q.pending := rfl
  have hfailure : (q.clear d).failure = q.failure := rfl
  have hsuccess : (q.clear d).success = q.success := rfl
  rw [reset, answer, hpending, hfailure, hsuccess]
  cases q.pending d.route <;> cases q.failure (target d.after) <;>
    cases q.success (target d.after) <;> simp

theorem reset_set_of_ne {r : R} (h : r ≠ d.route) : (q.reset target d).set r = q.set r := by
  rcases reset_cases target q d with ⟨-, -, heq⟩ | ⟨-, -, -, heq⟩ | ⟨-, -, heq⟩ <;> rw [heq] <;>
    simp [answered, clear, h]

theorem reset_pending_of_ne {r : R} (h : r ≠ d.route) :
    (q.reset target d).pending r = q.pending r := by
  rcases reset_cases target q d with ⟨-, -, heq⟩ | ⟨-, -, -, heq⟩ | ⟨-, -, heq⟩ <;> rw [heq] <;>
    simp [answered, clear, h]

theorem reset_inProgress : (q.reset target d).inProgress = false := by
  rcases reset_cases target q d with ⟨-, -, heq⟩ | ⟨-, -, -, heq⟩ | ⟨-, -, heq⟩ <;> rw [heq] <;> rfl

theorem reset_trying (s : S) :
    (q.reset target d).trying s = if s = d.after then false else q.trying s := by
  rcases reset_cases target q d with ⟨-, -, heq⟩ | ⟨-, -, -, heq⟩ | ⟨-, -, heq⟩ <;> rw [heq] <;>
    simp [answered, clear, Function.update_apply]

/-- The direction itself is idle after its reset if its request was refused. -/
theorem reset_route : ((q.reset target d).set d.route = false ∧
    (q.reset target d).pending d.route = false) ↔
      (q.pending d.route = true → q.failure (target d.after) = true) := by
  rcases reset_cases target q d with ⟨-, hfailure, heq⟩ | ⟨hpending, hfailure, -, heq⟩ |
    ⟨hfailure, -, heq⟩
  · simp [heq, answered, clear, hfailure]
  · simp [heq, answered, clear, hpending, hfailure]
  · cases hpending : q.pending d.route with
    | false => simp [heq, clear, hpending]
    | true => simp [heq, clear, hpending, hfailure hpending]

/-- A refusal is taken by one pending request. -/
theorem reset_failure (hrefused : q.pending d.route = true → q.failure (target d.after) = true)
    (n : Nat) : (q.reset target d).failure n = true ↔
      q.failure n = true ∧ ¬ (q.pending d.route = true ∧ n = target d.after) := by
  rcases reset_cases target q d with ⟨hpending, -, heq⟩ | ⟨hpending, hfailure, -, heq⟩ |
    ⟨hfailure, -, heq⟩
  · simp [heq, answered, clear, hpending, Function.update_apply, and_comm]
  · rw [hrefused hpending] at hfailure
    cases hfailure
  · cases hpending : q.pending d.route with
    | false => simp [heq, clear]
    | true =>
      rw [hrefused hpending] at hfailure
      cases hfailure hpending

/-- The conditions for the directions after the first one. -/
theorem refused_cons {ds : List (RouteDirection S R)} (hroute : d.route ∉ ds.map (·.route)) :
    q.Refused target (d :: ds) ↔
      (q.pending d.route = true → q.failure (target d.after) = true) ∧
        (q.reset target d).Refused target ds := by
  have hkept : ∀ d' ∈ ds, (q.reset target d).pending d'.route = q.pending d'.route := by
    intro d' hd'
    exact reset_pending_of_ne fun heq => hroute (heq ▸ List.mem_map_of_mem hd')
  constructor
  · rintro ⟨hfailure, hapart⟩
    obtain ⟨hfirst, hrest⟩ := List.pairwise_cons.mp hapart
    have hd := hfailure d List.mem_cons_self
    refine ⟨hd, fun d' hd' hpending => ?_, hrest.imp_of_mem fun {d' d''} hd' hd'' hne => ?_⟩
    · rw [hkept d' hd'] at hpending
      refine (reset_failure hd _).mpr ⟨hfailure d' (List.mem_cons_of_mem _ hd') hpending, ?_⟩
      exact fun h => hfirst d' hd' h.1 hpending h.2.symm
    · rwa [hkept d' hd', hkept d'' hd'']
  · rintro ⟨hd, hfailure, hapart⟩
    constructor
    · intro d' hd'
      rcases List.mem_cons.mp hd' with rfl | hd'
      · exact hd
      · intro hpending
        exact ((reset_failure hd _).mp (hfailure d' hd' ((hkept d' hd').trans hpending))).1
    · refine List.pairwise_cons.mpr ⟨fun d' hd' hp hp' heq => ?_,
        hapart.imp_of_mem fun {d' d''} hd' hd'' hne => ?_⟩
      · have hleft := (reset_failure hd _).mp (hfailure d' hd' ((hkept d' hd').trans hp'))
        exact hleft.2 ⟨hp, heq.symm⟩
      · rwa [hkept d' hd', hkept d'' hd''] at hne

/-- What no direction after the first one is for. -/
theorem unused_cons {ds : List (RouteDirection S R)} (hroute : d.route ∉ ds.map (·.route)) :
    (q.reset target d).Unused ds ↔
      q.Unused (d :: ds) ∧ (q.pending d.route = true → q.failure (target d.after) = true) := by
  constructor
  · rintro ⟨hset, hpending, htrying⟩
    refine ⟨⟨fun r hr => ?_, fun r hr => ?_, fun s hs => ?_⟩,
      reset_route.mp ⟨hset _ hroute, hpending _ hroute⟩⟩
    · obtain ⟨hne, hr⟩ : r ≠ d.route ∧ r ∉ ds.map (·.route) := by simpa using hr
      exact reset_set_of_ne hne ▸ hset r hr
    · obtain ⟨hne, hr⟩ : r ≠ d.route ∧ r ∉ ds.map (·.route) := by simpa using hr
      exact reset_pending_of_ne hne ▸ hpending r hr
    · obtain ⟨hne, hs⟩ : s ≠ d.after ∧ s ∉ ds.map (·.after) := by simpa using hs
      have htry := htrying s hs
      rwa [reset_trying, if_neg hne] at htry
  · rintro ⟨⟨hset, hpending, htrying⟩, hrefused⟩
    obtain ⟨hset', hpending'⟩ := reset_route.mpr hrefused
    refine ⟨fun r hr => ?_, fun r hr => ?_, fun s hs => ?_⟩
    · by_cases heq : r = d.route
      · rwa [heq]
      · rw [reset_set_of_ne heq]
        exact hset r (by simpa [heq] using hr)
    · by_cases heq : r = d.route
      · rwa [heq]
      · rw [reset_pending_of_ne heq]
        exact hpending r (by simpa [heq] using hr)
    · rw [reset_trying]
      split
      · rfl
      · next hne => exact htrying s (by simpa [hne] using hs)

end Reset

/-- After a reset, the piece is idle if and only if there was nothing that no direction is for, and
each pending request had been refused. -/
theorem idle_reset {target : S → Nat} {ds : List (RouteDirection S R)} (hne : ds ≠ [])
    (hroutes : (ds.map (·.route)).Nodup) (q : RouteRequests S R) :
    (ds.foldl (reset target) q).Idle ↔ q.Unused ds ∧ q.Refused target ds := by
  suffices h : ∀ (ds : List (RouteDirection S R)) (q : RouteRequests S R),
      (ds.map (·.route)).Nodup → ((ds.foldl (reset target) q).Idle ↔
        q.Unused ds ∧ q.Refused target ds ∧ (ds = [] → q.inProgress = false)) by
    simpa [hne] using h ds q hroutes
  intro ds
  induction ds with
  | nil =>
    intro q _
    constructor
    · intro h
      exact ⟨⟨fun r _ => h.set r, fun r _ => h.pending r, fun s _ => h.trying s⟩,
        ⟨by simp, List.Pairwise.nil⟩, fun _ => h.inProgress⟩
    · rintro ⟨hunused, -, hprogress⟩
      exact ⟨fun r => hunused.set r (by simp), fun r => hunused.pending r (by simp),
        hprogress rfl, fun s => hunused.trying s (by simp)⟩
  | cons d ds ih =>
    intro q hroutes
    obtain ⟨hroute, hrest⟩ := List.nodup_cons.mp hroutes
    rw [List.foldl_cons, ih (q.reset target d) hrest, refused_cons hroute, unused_cons hroute]
    have hprogress : ds = [] → (q.reset target d).inProgress = false := fun _ => reset_inProgress
    tauto

end RouteRequests

end OpenmrnCue.Automata
