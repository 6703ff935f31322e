import Mathlib.Tactic.SplitIfs

/-! Cooperative state flows.  A flow has a current state, which is a function that the executor
calls; what the function returns says whether the flow goes on at once or waits to be notified.
Between two calls other code can run, also between two states that follow each other at once. -/

namespace StateFlow

variable {σ : Type}

/-- What a state of a flow returns.  `wait` keeps the state. -/
inductive Action (σ : Type) where
  | callImmediately (next : σ)
  | waitAndCall (next : σ)
  | wait

/-- A flow: its state, whether it goes on without waiting, and how many notifications are
outstanding; each of them lets a waiting flow go on once. -/
structure Flow (σ : Type) where
  state : σ
  running : Bool
  notified : Nat
deriving DecidableEq, Repr

namespace Flow

/-- `start_flow`. -/
def start (state : σ) : Flow σ := ⟨state, false, 1⟩

def notify (f : Flow σ) : Flow σ := { f with notified := f.notified + 1 }

/-- The executor takes up the flow, if it is not waiting. -/
def dispatch (f : Flow σ) : Option (Flow σ) :=
  if f.running then some f
  else if f.notified = 0 then none
  else some { f with running := true, notified := f.notified - 1 }

/-- The flow after the function of its state has returned. -/
def finish (f : Flow σ) : Action σ → Flow σ
  | .callImmediately next => { f with state := next }
  | .waitAndCall next => { f with state := next, running := false }
  | .wait => { f with running := false }

/-- The flow waits, and no notification is outstanding. -/
def parked (f : Flow σ) : Bool := !f.running && f.notified = 0

variable {f g : Flow σ}

@[simp] theorem notify_state (f : Flow σ) : f.notify.state = f.state := rfl

@[simp] theorem notify_running (f : Flow σ) : f.notify.running = f.running := rfl

@[simp] theorem notify_notified (f : Flow σ) : f.notify.notified = f.notified + 1 := rfl

@[simp] theorem finish_callImmediately (f : Flow σ) (next : σ) :
    f.finish (.callImmediately next) = { f with state := next } := rfl

@[simp] theorem finish_waitAndCall (f : Flow σ) (next : σ) :
    f.finish (.waitAndCall next) = { f with state := next, running := false } := rfl

@[simp] theorem finish_wait (f : Flow σ) : f.finish .wait = { f with running := false } := rfl

@[simp] theorem parked_notify (f : Flow σ) : f.notify.parked = false := by simp [parked]

theorem parked_of_running (h : f.running = true) : f.parked = false := by simp [parked, h]

theorem dispatch_eq_some (h : f.dispatch = some g) : g.state = f.state ∧ g.running = true := by
  unfold dispatch at h
  split_ifs at h with hrunning
  · cases h
    exact ⟨rfl, hrunning⟩
  · cases h
    exact ⟨rfl, rfl⟩

theorem dispatch_eq_none : f.dispatch = none ↔ f.parked = true := by
  unfold dispatch parked
  split_ifs with hrunning hzero <;> simp_all

end Flow

end StateFlow
