import Mathlib.Data.Bool.Count
import Mathlib.Logic.Equiv.Basic

/-! Requests that are passed along a line of nodes.  A node passes a request on to the next node and
is pending until that one has answered; its answer goes back to the node before.  Each link between
two nodes then has exactly one token as long as its first node is pending: the request, the second
node that is pending in its turn, or one of the two answers.  Where no node gives up what it has
been granted, a node has been granted a request only if the next one has. -/

/-- The requests that nodes have passed on, the pending nodes, their answers to the nodes before
them, and the nodes whose requests have been granted. -/
@[ext] structure Tokens (N : Type*) where
  request : N → Bool
  pending : N → Bool
  success : N → Bool
  failure : N → Bool
  granted : N → Bool

namespace Tokens

variable {N : Type*}

/-- A bit of a node. -/
inductive Slot (N : Type*) where
  | request (k : N)
  | pending (k : N)
  | success (k : N)
  | failure (k : N)
  | granted (k : N)

section Write

variable [DecidableEq N]

def write (t : Tokens N) : Slot N × Bool → Tokens N
  | (.request k, b) => { t with request := Function.update t.request k b }
  | (.pending k, b) => { t with pending := Function.update t.pending k b }
  | (.success k, b) => { t with success := Function.update t.success k b }
  | (.failure k, b) => { t with failure := Function.update t.failure k b }
  | (.granted k, b) => { t with granted := Function.update t.granted k b }

def writes (t : Tokens N) (ws : List (Slot N × Bool)) : Tokens N := ws.foldl write t

end Write

/-- Where the token of the link behind a node can be. -/
def places (next : N ≃ N) (t : Tokens N) (k : N) : List Bool :=
  [t.request k, t.pending (next k), t.success (next k), t.failure (next k)]

/-- The link behind a pending node has one token, and that behind another node has none. -/
def OneToken (next : N ≃ N) (t : Tokens N) (k : N) : Prop :=
  (t.places next k).count true = if t.pending k then 1 else 0

/-! ### What a node does -/

section Steps

variable (next : N ≃ N) (k : N)

/-- It rejects the request of the node before. -/
def reject : List (Slot N × Bool) :=
  [(.failure k, true), (.success k, false), (.request (next.symm k), false)]

/-- It grants the request without passing it on. -/
def grant : List (Slot N × Bool) :=
  [(.request (next.symm k), false), (.failure k, false), (.success k, true)]

/-- It passes the request on. -/
def forward : List (Slot N × Bool) :=
  [(.pending k, true), (.request (next.symm k), false), (.success (next k), false),
    (.failure (next k), false), (.request k, true)]

/-- It passes a failure back. -/
def passFailure : List (Slot N × Bool) :=
  [(.pending k, false), (.failure (next k), false), (.success (next k), false),
    (.success k, false), (.failure k, true)]

/-- It passes a success back. -/
def passSuccess : List (Slot N × Bool) :=
  [(.pending k, false), (.failure (next k), false), (.success (next k), false),
    (.failure k, false), (.success k, true), (.granted k, true)]

end Steps

section Links

variable {next : N ≃ N} {t : Tokens N} {j k : N}

/-- The request is the only token. -/
theorem OneToken.of_request (h : t.OneToken next k) (hrequest : t.request k = true) :
    t.pending k = true ∧ t.pending (next k) = false ∧ t.success (next k) = false ∧
      t.failure (next k) = false := by
  unfold OneToken places at h
  revert h
  rw [hrequest]
  cases t.pending k <;> cases t.pending (next k) <;> cases t.success (next k) <;>
    cases t.failure (next k) <;> simp

/-- The pending node is the only token. -/
theorem OneToken.of_pending (h : t.OneToken next k) (hpending : t.pending (next k) = true) :
    t.pending k = true ∧ t.request k = false ∧ t.success (next k) = false ∧
      t.failure (next k) = false := by
  unfold OneToken places at h
  revert h
  rw [hpending]
  cases t.pending k <;> cases t.request k <;> cases t.success (next k) <;>
    cases t.failure (next k) <;> simp

theorem OneToken.of_failure (h : t.OneToken next k) (hfailure : t.failure (next k) = true) :
    t.pending k = true ∧ t.request k = false ∧ t.pending (next k) = false ∧
      t.success (next k) = false := by
  unfold OneToken places at h
  revert h
  rw [hfailure]
  cases t.pending k <;> cases t.request k <;> cases t.pending (next k) <;>
    cases t.success (next k) <;> simp

theorem OneToken.of_success (h : t.OneToken next k) (hsuccess : t.success (next k) = true) :
    t.pending k = true ∧ t.request k = false ∧ t.pending (next k) = false ∧
      t.failure (next k) = false := by
  unfold OneToken places at h
  revert h
  rw [hsuccess]
  cases t.pending k <;> cases t.request k <;> cases t.pending (next k) <;>
    cases t.failure (next k) <;> simp

/-- No token behind a node that is not pending. -/
theorem OneToken.of_not_pending (h : t.OneToken next k) (hpending : t.pending k = false) :
    t.request k = false ∧ t.pending (next k) = false ∧ t.success (next k) = false ∧
      t.failure (next k) = false := by
  unfold OneToken places at h
  revert h
  rw [hpending]
  cases t.request k <;> cases t.pending (next k) <;> cases t.success (next k) <;>
    cases t.failure (next k) <;> simp

/-- What a link does not have leaves it as it is. -/
theorem OneToken.congr {t' : Tokens N} (h : t.OneToken next k)
    (hrequest : t'.request k = t.request k) (hpending : t'.pending k = t.pending k)
    (hnext : t'.pending (next k) = t.pending (next k))
    (hsuccess : t'.success (next k) = t.success (next k))
    (hfailure : t'.failure (next k) = t.failure (next k)) : t'.OneToken next k := by
  unfold OneToken places at h ⊢
  rw [hrequest, hpending, hnext, hsuccess, hfailure]
  exact h

end Links

/-! ### Links keep their tokens -/

section Keeps

variable [DecidableEq N] {next : N ≃ N} {t : Tokens N} {j k : N}

/-- The link is that behind the node, that before it, or another one. -/
theorem link_cases (next : N ≃ N) (j k : N) :
    j = next.symm k ∨ (j ≠ next.symm k ∧ next j ≠ k) := by
  by_cases hj : j = next.symm k
  · exact .inl hj
  · exact .inr ⟨hj, fun heq => hj (by rw [← heq, Equiv.symm_apply_apply])⟩

theorem OneToken.reject (h : t.OneToken next j)
    (hrequest : j = next.symm k → t.request j = true) :
    (t.writes (reject next k)).OneToken next j := by
  rcases link_cases next j k with rfl | ⟨hj, hjk⟩
  · obtain ⟨hpending, hk, -, -⟩ := h.of_request (hrequest rfl)
    rw [Equiv.apply_symm_apply] at hk
    simp [OneToken, places, writes, Tokens.reject, write, hpending, hk]
  · exact h.congr (by simp [writes, Tokens.reject, write, hj]) rfl rfl
      (by simp [writes, Tokens.reject, write, hjk]) (by simp [writes, Tokens.reject, write, hjk])

theorem OneToken.grant (h : t.OneToken next j)
    (hrequest : j = next.symm k → t.request j = true) :
    (t.writes (grant next k)).OneToken next j := by
  rcases link_cases next j k with rfl | ⟨hj, hjk⟩
  · obtain ⟨hpending, hk, -, -⟩ := h.of_request (hrequest rfl)
    rw [Equiv.apply_symm_apply] at hk
    simp [OneToken, places, writes, Tokens.grant, write, hpending, hk]
  · exact h.congr (by simp [writes, Tokens.grant, write, hj]) rfl rfl
      (by simp [writes, Tokens.grant, write, hjk]) (by simp [writes, Tokens.grant, write, hjk])

variable (hloop : ∀ k, next k ≠ k)

include hloop

theorem OneToken.forward (h : t.OneToken next j)
    (hrequest : j = next.symm k → t.request j = true) (hidle : j = k → t.pending j = false) :
    (t.writes (forward next k)).OneToken next j := by
  have hprev : next.symm k ≠ k := fun heq => hloop k (by rw [← heq, Equiv.apply_symm_apply, heq])
  have hnext := hloop k
  rcases link_cases next j k with rfl | ⟨hj, hjk⟩
  · obtain ⟨hpending, -, hsuccess, hfailure⟩ := h.of_request (hrequest rfl)
    rw [Equiv.apply_symm_apply] at hsuccess hfailure
    simp [OneToken, places, writes, Tokens.forward, write, hprev, hnext.symm, hpending, hsuccess,
      hfailure]
  · by_cases hjk' : j = k
    · subst hjk'
      obtain ⟨-, hpending, -, -⟩ := h.of_not_pending (hidle rfl)
      simp [OneToken, places, writes, Tokens.forward, write, hnext, hpending]
    · have hne : next j ≠ next k := fun heq => hjk' (next.injective heq)
      refine h.congr ?_ ?_ ?_ ?_ ?_ <;>
        simp [writes, Tokens.forward, write, hj, hjk, hjk', hne]

theorem OneToken.passFailure (h : t.OneToken next j) (hpending : t.pending k = true)
    (hanswer : t.failure (next k) = true) :
    (t.writes (passFailure next k)).OneToken next j := by
  have hprev : next.symm k ≠ k := fun heq => hloop k (by rw [← heq, Equiv.apply_symm_apply, heq])
  have hnext := hloop k
  rcases link_cases next j k with rfl | ⟨hj, hjk⟩
  · obtain ⟨hbefore, hrequest, -, -⟩ := h.of_pending (by rwa [Equiv.apply_symm_apply])
    simp [OneToken, places, writes, Tokens.passFailure, write, hprev, hbefore, hrequest]
  · by_cases hjk' : j = k
    · subst hjk'
      obtain ⟨-, hrequest, hother, -⟩ := h.of_failure hanswer
      simp [OneToken, places, writes, Tokens.passFailure, write, hnext, hrequest, hother]
    · have hne : next j ≠ next k := fun heq => hjk' (next.injective heq)
      refine h.congr ?_ ?_ ?_ ?_ ?_ <;>
        simp [writes, Tokens.passFailure, write, hjk, hjk', hne]

theorem OneToken.passSuccess (h : t.OneToken next j) (hpending : t.pending k = true)
    (hanswer : t.success (next k) = true) :
    (t.writes (passSuccess next k)).OneToken next j := by
  have hprev : next.symm k ≠ k := fun heq => hloop k (by rw [← heq, Equiv.apply_symm_apply, heq])
  have hnext := hloop k
  rcases link_cases next j k with rfl | ⟨hj, hjk⟩
  · obtain ⟨hbefore, hrequest, -, -⟩ := h.of_pending (by rwa [Equiv.apply_symm_apply])
    simp [OneToken, places, writes, Tokens.passSuccess, write, hprev, hbefore, hrequest]
  · by_cases hjk' : j = k
    · subst hjk'
      obtain ⟨-, hrequest, hother, -⟩ := h.of_success hanswer
      simp [OneToken, places, writes, Tokens.passSuccess, write, hnext, hrequest, hother]
    · have hne : next j ≠ next k := fun heq => hjk' (next.injective heq)
      refine h.congr ?_ ?_ ?_ ?_ ?_ <;>
        simp [writes, Tokens.passSuccess, write, hjk, hjk', hne]

end Keeps

/-! ### Runs -/

/-- Relays only pass requests and answers on.  Sources make requests of their own, and any node that
is not a relay may grant a request without passing it on. -/
structure Roles (N : Type*) where
  relay : N → Prop
  source : N → Prop
  source_not_relay : ∀ k, source k → ¬ relay k

/-- What a node writes in a step. -/
inductive Step (next : N ≃ N) (roles : Roles N) (mayRelease : Prop) (t : Tokens N) (k : N) :
    List (Slot N × Bool) → Prop
  | release {ws : List (Slot N × Bool)} (h : ∀ w ∈ ws, w = (.granted k, false))
      (hmay : ws ≠ [] → mayRelease) : Step next roles mayRelease t k ws
  | reject (h : t.request (next.symm k) = true) :
      Step next roles mayRelease t k (Tokens.reject next k)
  | grant (hrelay : ¬ roles.relay k) (h : t.request (next.symm k) = true) :
      Step next roles mayRelease t k (Tokens.grant next k)
  | forward (h : t.request (next.symm k) = true) (hidle : roles.relay k → t.pending k = false) :
      Step next roles mayRelease t k (Tokens.forward next k)
  | passFailure (hpending : t.pending k = true) (h : t.failure (next k) = true) :
      Step next roles mayRelease t k (Tokens.passFailure next k)
  | passSuccess (hpending : t.pending k = true) (h : t.success (next k) = true) :
      Step next roles mayRelease t k (Tokens.passSuccess next k)
  | ask (hsource : roles.source k) : Step next roles mayRelease t k [(.request k, true)]
  | refused (hsource : roles.source k) :
      Step next roles mayRelease t k [(.failure (next k), false)]
  | obtained (hsource : roles.source k) (h : t.success (next k) = true) :
      Step next roles mayRelease t k [(.success (next k), false), (.granted k, true)]

section Runs

variable [DecidableEq N] {next : N ≃ N} {roles : Roles N} {mayRelease : Prop} {t : Tokens N}
  {j k : N} {ws : List (Slot N × Bool)}

/-- A release writes nothing else. -/
theorem writes_granted (h : ∀ w ∈ ws, w = (.granted k, false)) :
    ∃ granted, t.writes ws = { t with granted := granted } := by
  induction ws generalizing t with
  | nil => exact ⟨t.granted, rfl⟩
  | cons w ws ih =>
    obtain rfl := h w List.mem_cons_self
    obtain ⟨granted, heq⟩ := @ih (t.write (.granted k, false))
      (fun w' hw' => h w' (List.mem_cons_of_mem _ hw'))
    exact ⟨granted, heq⟩

/-- Every step keeps the token of a link behind a relay. -/
theorem OneToken.step (hloop : ∀ k, next k ≠ k) (h : t.OneToken next j) (hj : roles.relay j)
    (hstep : Step next roles mayRelease t k ws) : (t.writes ws).OneToken next j := by
  have hsource : roles.source k → j ≠ k := fun hk heq => roles.source_not_relay k hk (heq ▸ hj)
  cases hstep with
  | release hws _ =>
    obtain ⟨granted, heq⟩ := writes_granted (t := t) hws
    rw [heq]
    exact h
  | reject hrequest => exact h.reject fun heq => heq ▸ hrequest
  | grant _ hrequest => exact h.grant fun heq => heq ▸ hrequest
  | forward hrequest hidle =>
    exact h.forward hloop (fun heq => heq ▸ hrequest) fun heq => heq ▸ hidle (heq ▸ hj)
  | passFailure hpending hanswer => exact h.passFailure hloop hpending hanswer
  | passSuccess hpending hanswer => exact h.passSuccess hloop hpending hanswer
  | ask hk => exact h.congr (Function.update_of_ne (hsource hk) _ _) rfl rfl rfl rfl
  | refused hk =>
    exact h.congr rfl rfl rfl rfl (Function.update_of_ne (next.injective.ne (hsource hk)) _ _)
  | obtained hk _ =>
    exact h.congr rfl rfl rfl (Function.update_of_ne (next.injective.ne (hsource hk)) _ _) rfl

/-- What has been granted stays so. -/
theorem Step.granted_mono (hstep : Step next roles False t k ws) (h : t.granted j = true) :
    (t.writes ws).granted j = true := by
  cases hstep with
  | release hws hmay =>
    obtain rfl : ws = [] := by_contra hmay
    exact h
  | passSuccess =>
    by_cases hjk : j = k <;> simp [writes, Tokens.passSuccess, write, hjk, h]
  | obtained =>
    by_cases hjk : j = k <;> simp [writes, write, hjk, h]
  | _ => exact h

/-- A request is granted on the answer of the next node. -/
theorem Step.granted_new (hstep : Step next roles False t k ws)
    (h : (t.writes ws).granted j = true) :
    t.granted j = true ∨ (j = k ∧ t.success (next k) = true) := by
  cases hstep with
  | release hws hmay =>
    obtain rfl : ws = [] := by_contra hmay
    exact .inl h
  | passSuccess _ hanswer =>
    by_cases hjk : j = k
    · exact .inr ⟨hjk, hanswer⟩
    · exact .inl (by simpa [writes, Tokens.passSuccess, write, hjk] using h)
  | obtained _ hanswer =>
    by_cases hjk : j = k
    · exact .inr ⟨hjk, hanswer⟩
    · exact .inl (by simpa [writes, write, hjk] using h)
  | _ => exact .inl h

/-- A relay answers with a success once its request has been granted. -/
theorem Step.success_new (hstep : Step next roles False t k ws)
    (h : (t.writes ws).success j = true) :
    t.success j = true ∨ (j = k ∧ (roles.relay k → (t.writes ws).granted k = true)) := by
  by_contra hnot
  obtain ⟨hold, hnew⟩ := not_or.mp hnot
  have hj : ∀ b, Function.update t.success k b j = true → j = k := by
    intro b hb
    by_contra hjk
    exact hold (by simpa [hjk] using hb)
  have hclear : ∀ f : N → Bool, ∀ i, f j = false → Function.update f i false j = false := by
    intro f i hf
    by_cases hji : j = i <;> simp [hji, hf]
  have hfalse : t.success j = false := by simpa using hold
  cases hstep with
  | release hws hmay =>
    obtain rfl : ws = [] := by_contra hmay
    exact hold h
  | reject => simp [writes, Tokens.reject, write, hclear _ _ hfalse] at h
  | grant hrelay _ =>
    exact hnew ⟨hj true h, fun hk => absurd hk hrelay⟩
  | forward => simp [writes, Tokens.forward, write, hclear _ _ hfalse] at h
  | passFailure => simp [writes, Tokens.passFailure, write, hclear _ _ (hclear _ _ hfalse)] at h
  | passSuccess =>
    refine hnew ⟨?_, fun _ => by simp [writes, Tokens.passSuccess, write]⟩
    by_contra hjk
    simp [writes, Tokens.passSuccess, write, hjk, hclear _ _ hfalse] at h
  | obtained => simp [writes, write, hclear _ _ hfalse] at h
  | _ => exact hold h

/-- A node writes no other node's pending request. -/
theorem Step.pending_other (hstep : Step next roles mayRelease t k ws) (hjk : j ≠ k) :
    (t.writes ws).pending j = t.pending j := by
  cases hstep with
  | release hws _ =>
    obtain ⟨granted, heq⟩ := writes_granted (t := t) hws
    rw [heq]
  | forward => simp [writes, Tokens.forward, write, hjk]
  | passFailure => simp [writes, Tokens.passFailure, write, hjk]
  | passSuccess => simp [writes, Tokens.passSuccess, write, hjk]
  | _ => rfl

/-- A node writes the answers of itself and of the next node. -/
theorem Step.success_other (hstep : Step next roles mayRelease t k ws) (hjk : j ≠ k)
    (hjnext : j ≠ next k) : (t.writes ws).success j = t.success j := by
  cases hstep with
  | release hws _ =>
    obtain ⟨granted, heq⟩ := writes_granted (t := t) hws
    rw [heq]
  | reject => simp [writes, Tokens.reject, write, hjk]
  | grant => simp [writes, Tokens.grant, write, hjk]
  | forward => simp [writes, Tokens.forward, write, hjnext]
  | passFailure => simp [writes, Tokens.passFailure, write, hjk, hjnext]
  | passSuccess => simp [writes, Tokens.passSuccess, write, hjk, hjnext]
  | obtained => simp [writes, write, hjnext]
  | _ => rfl

/-- A node has been granted its request only after the next relay. -/
structure Chained (next : N ≃ N) (roles : Roles N) (t : Tokens N) : Prop where
  answered : ∀ k, roles.relay k → t.success k = true → t.granted k = true
  chain : ∀ k, roles.relay (next k) → t.granted k = true → t.granted (next k) = true

theorem Chained.step (h : t.Chained next roles) (hstep : Step next roles False t k ws) :
    (t.writes ws).Chained next roles where
  answered j hj hsuccess := by
    rcases hstep.success_new hsuccess with hold | ⟨rfl, hnew⟩
    · exact hstep.granted_mono (h.answered j hj hold)
    · exact hnew hj
  chain j hj hgranted := by
    rcases hstep.granted_new hgranted with hold | ⟨rfl, hanswer⟩
    · exact hstep.granted_mono (h.chain j hj hold)
    · exact hstep.granted_mono (h.answered _ hj hanswer)

/-- Behind a relay whose next node has been granted the request, the answer is on its way. -/
def Backed (next : N ≃ N) (t : Tokens N) (j : N) : Prop :=
  t.granted (next j) = true →
    t.granted j = true ∨ (t.pending j = true ∧ t.success (next j) = true)

theorem Backed.step (hloop : ∀ k, next k ≠ k) (h : t.Backed next j) (htoken : t.OneToken next j)
    (hj : roles.relay j) (hnext : ¬ roles.source (next j))
    (hstep : Step next roles False t k ws) : (t.writes ws).Backed next j := by
  intro hgranted
  -- Without an answer the relay has been granted its request as well.
  have hquiet : t.granted (next j) = true → t.success (next j) = false →
      (t.writes ws).granted j = true := by
    intro hold hsuccess
    rcases h hold with hheld | ⟨-, hanswer⟩
    · exact hstep.granted_mono hheld
    · rw [hsuccess] at hanswer
      cases hanswer
  by_cases hknext : k = next j
  · subst hknext
    cases hstep with
    | release hws hmay =>
      obtain rfl : ws = [] := by_contra hmay
      exact h hgranted
    | reject hrequest =>
      rw [Equiv.symm_apply_apply] at hrequest
      exact .inl (hquiet hgranted (htoken.of_request hrequest).2.2.1)
    | grant _ hrequest =>
      rw [Equiv.symm_apply_apply] at hrequest
      exact .inl (hquiet hgranted (htoken.of_request hrequest).2.2.1)
    | forward hrequest _ =>
      rw [Equiv.symm_apply_apply] at hrequest
      exact .inl (hquiet hgranted (htoken.of_request hrequest).2.2.1)
    | passFailure hpending _ =>
      exact .inl (hquiet hgranted (htoken.of_pending hpending).2.2.1)
    | passSuccess hpending _ =>
      obtain ⟨hbefore, -⟩ := htoken.of_pending hpending
      refine .inr ⟨?_, by simp [writes, Tokens.passSuccess, write]⟩
      simpa [writes, Tokens.passSuccess, write, (hloop j).symm] using hbefore
    | ask hsource => exact absurd hsource hnext
    | refused hsource => exact absurd hsource hnext
    | obtained hsource _ => exact absurd hsource hnext
  · have hold : t.granted (next j) = true :=
      (hstep.granted_new hgranted).resolve_right fun hnew => hknext hnew.1.symm
    rcases h hold with hheld | ⟨hpending, hanswer⟩
    · exact .inl (hstep.granted_mono hheld)
    · by_cases hkj : k = j
      · subst hkj
        cases hstep with
        | release hws hmay =>
          obtain rfl : ws = [] := by_contra hmay
          exact .inr ⟨hpending, hanswer⟩
        | reject =>
          refine .inr ⟨hpending, ?_⟩
          simpa [writes, Tokens.reject, write, hloop] using hanswer
        | grant hrelay _ => exact absurd hj hrelay
        | forward _ hidle =>
          rw [hidle hj] at hpending
          cases hpending
        | passFailure _ hfailure =>
          exact .inl (hquiet hold (htoken.of_failure hfailure).2.2.2)
        | passSuccess => exact .inl (by simp [writes, Tokens.passSuccess, write])
        | ask hsource => exact absurd hj (roles.source_not_relay _ hsource)
        | refused hsource => exact absurd hj (roles.source_not_relay _ hsource)
        | obtained hsource _ => exact absurd hj (roles.source_not_relay _ hsource)
      · refine .inr ⟨?_, ?_⟩
        · rw [hstep.pending_other (Ne.symm hkj)]
          exact hpending
        · rw [hstep.success_other (Ne.symm hknext) fun heq => hkj (next.injective heq).symm]
          exact hanswer

end Runs

end Tokens
