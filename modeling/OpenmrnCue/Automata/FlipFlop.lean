import Mathlib.Data.List.FinRange
import Mathlib.Logic.Relation
import OpenmrnCue.Automata.Plugins
import OpenmrnCue.Library.Trace

/-! The flip-flop automaton of `control-logic.cc`, which grants a permission to its clients in
turn.  The client whose turn it is may lend its turn to another one, which steals it; the turn is
passed on only when the client whose turn it is has taken its own permission. -/

namespace OpenmrnCue.Automata

/-! ## Operations -/

/-- `FlipFlopAutomata`, by the number of the clients, which `FlipFlopLogic` asserts to be two or
more. -/
structure FlipFlopAutomata where
  clients : Nat
  enough : 2 ≤ clients

/-- The variables of the automaton and of its clients. -/
inductive FlipFlopBit (a : FlipFlopAutomata) where
  | stealRequest
  | stealGranted
  | request (client : Fin a.clients)
  | granted (client : Fin a.clients)
  | taken (client : Fin a.clients)
  | next (client : Fin a.clients)
deriving DecidableEq, Repr

abbrev FlipFlopOp (a : FlipFlopAutomata) := Op (FlipFlopBit a) Empty

def stFree : Nat := 2
def stLocked : Nat := 3
def stGranted : Nat := 4
def stGrantWait : Nat := 5
def stStolen : Nat := 6
def stStolenWait : Nat := 7
def stStealOnHold : Nat := 8
def kWaitTimeout : Nat := 3

namespace FlipFlopAutomata

variable (a : FlipFlopAutomata)

/-- The operations of `FlipFlopLogic` for one client. -/
def clientLogic (c : Fin a.clients) : List (FlipFlopOp a) :=
  let request := .request c
  let granted := .granted c
  let taken := .taken c
  let next := .next c
  [⟨[.ifState stFree], [.actState stLocked, .actReg1 next]⟩,
    ⟨[.ifState stLocked, .ifReg1 next, .ifReg1 request],
      [.actState stGranted, .actReg1 granted]⟩,
    -- The request is retracted.
    ⟨[.ifState stGranted, .ifReg1 next, .ifReg1 granted, .ifReg0 request],
      [.actState stLocked, .actReg0 granted]⟩,
    -- The permission is taken.
    ⟨[.ifState stGranted, .ifReg1 next, .ifReg1 taken],
      [.actReg0 taken, .actState stGrantWait, .actTimer kWaitTimeout]⟩,
    ⟨[.ifState stGrantWait, .ifReg1 next, .ifTimerDone], [.actReg0 next, .actState stFree]⟩,
    -- Another client asks for the turn.
    ⟨[.ifState stLocked, .ifReg0 next, .ifReg1 request], [.actReg1 .stealRequest]⟩,
    ⟨[.ifState stGrantWait], [.actReg0 .stealRequest, .actReg0 .stealGranted]⟩,
    ⟨[.ifState stLocked, .ifReg0 next, .ifReg1 request, .ifReg1 .stealGranted],
      [.actReg0 .stealRequest, .actReg0 .stealGranted, .actReg1 granted, .actState stStolen]⟩,
    ⟨[.ifState stStolen, .ifReg1 granted, .ifReg0 request],
      [.actReg0 granted, .actState stLocked]⟩,
    ⟨[.ifState stStolen, .ifReg1 taken],
      [.actReg0 taken, .actTimer kWaitTimeout, .actState stStolenWait]⟩,
    -- The client whose turn it is lends it.
    ⟨[.ifState stLocked, .ifReg1 next, .ifReg0 request, .ifReg1 .stealRequest],
      [.actTimer 2, .actState stStealOnHold]⟩,
    ⟨[.ifState stStealOnHold, .ifReg1 next, .ifReg0 request, .ifTimerDone],
      [.actState stLocked, .actReg1 .stealGranted]⟩,
    ⟨[.ifState stStealOnHold, .ifReg1 next, .ifReg1 request],
      [.actTimer 0, .actState stLocked]⟩,
    ⟨[.ifState stStolenWait, .ifReg1 next, .ifTimerDone],
      [.actState stLocked, .actReg0 .stealRequest, .actReg0 .stealGranted]⟩]

/-- `FlipFlopLogic`. -/
def flipFlopLogic : List (FlipFlopOp a) :=
  ⟨[.ifState stInit], [.actState stFree]⟩ :: (List.finRange a.clients).flatMap a.clientLogic

/-- `Body`. -/
def body : List (FlipFlopOp a) :=
  (Plugins.init.addAutomataPlugin 100 a.flipFlopLogic).runAll

/-- What happens next: a run, a tick, a client that sets or clears its request, or a client that
takes the permission that it sees. -/
inductive Event where
  | run
  | tick
  | request (client : Fin a.clients) (value : Bool)
  | take (client : Fin a.clients)
deriving DecidableEq, Repr

variable {a}

/-- `Tick`. -/
def tick (s : Layout (FlipFlopBit a)) : Layout (FlipFlopBit a) :=
  { s with timer := if s.timer = 0 then 0 else s.timer - 1 }

/-- A client takes the permission that it has asked for and sees granted. -/
def take (c : Fin a.clients) (s : Layout (FlipFlopBit a)) : Layout (FlipFlopBit a) :=
  ((s.setBit (.request c) false).setBit (.granted c) false).setBit (.taken c) true

def step (s : Layout (FlipFlopBit a)) : Event a → Option (Layout (FlipFlopBit a))
  | .run => some (s.run a.body)
  | .tick => some (tick s)
  | .request c value => some (s.setBit (.request c) value)
  | .take c => if s.bits (.request c) && s.bits (.granted c) then some (take c s) else none

/-- Before the first run: all bits are zero. -/
structure Initial (s : Layout (FlipFlopBit a)) : Prop where
  state : s.state = UInt8.ofNat stInit
  bits : ∀ var, s.bits var = false

end FlipFlopAutomata

/-! ## Turns -/

/-- A permission is offered, or it has been taken and this has not been seen yet. -/
inductive Offer where
  | offered
  | taken
deriving DecidableEq, Repr

/-- Whose turn it is, and what becomes of it. -/
inductive Turn (C : Type) where
  | start
  | free
  | locked (holder : C)
  | granted (holder : C) (offer : Offer)
  | grantWait (holder : C)
  | stealOnHold (holder : C)
  | stolen (holder thief : C) (offer : Offer)
  | stolenWait (holder : C)

namespace Turn

variable {C : Type}

/-- The state of the automaton. -/
def state : Turn C → Nat
  | start => stInit
  | free => stFree
  | locked _ => stLocked
  | granted _ _ => stGranted
  | grantWait _ => stGrantWait
  | stealOnHold _ => stStealOnHold
  | stolen _ _ _ => stStolen
  | stolenWait _ => stStolenWait

/-- The client whose turn it is. -/
def holder : Turn C → Option C
  | start => none
  | free => none
  | locked c => some c
  | granted c _ => some c
  | grantWait c => some c
  | stealOnHold c => some c
  | stolen c _ _ => some c
  | stolenWait c => some c

/-- The client that is offered a permission. -/
def offered : Turn C → Option C
  | granted c .offered => some c
  | stolen _ c .offered => some c
  | _ => none

/-- The client that has just taken a permission. -/
def taken : Turn C → Option C
  | granted c .taken => some c
  | stolen _ c .taken => some c
  | _ => none

/-- The client that has taken the permission of its own turn. -/
def served : Turn C → Option C
  | granted c .taken => some c
  | grantWait c => some c
  | _ => none

/-- What the automaton makes of a turn in one operation. -/
inductive Serves : Turn C → Turn C → Prop
  | begin : Serves start free
  | lock (c : C) : Serves free (locked c)
  | grant (c : C) : Serves (locked c) (granted c .offered)
  | retract (c : C) : Serves (granted c .offered) (locked c)
  | wait (c : C) : Serves (granted c .taken) (grantWait c)
  | pass (c : C) : Serves (grantWait c) free
  | steal (c thief : C) : Serves (locked c) (stolen c thief .offered)
  | retractStolen (c thief : C) : Serves (stolen c thief .offered) (locked c)
  | waitStolen (c thief : C) : Serves (stolen c thief .taken) (stolenWait c)
  | hold (c : C) : Serves (locked c) (stealOnHold c)
  | resume (c : C) : Serves (stealOnHold c) (locked c)
  | takeBack (c : C) : Serves (stolenWait c) (locked c)

/-- What it makes of a turn in a run. -/
def Moves : Turn C → Turn C → Prop := Relation.ReflTransGen Serves

variable {t u : Turn C} {c : C}

/-- The turn passes from a client only when this has taken its own permission. -/
theorem Serves.holder (h : Serves t u) (hholder : t.holder = some c) :
    u.holder = some c ∨ t.served = some c := by
  cases h with
  | pass => exact .inr hholder
  | _ => first | exact .inl hholder | cases hholder

theorem Serves.ne_start (h : Serves t u) : u ≠ start := by
  rintro rfl
  cases h

/-- The automaton itself takes no permission. -/
theorem Serves.served (h : Serves t u) (hserved : u.served = some c) : t.served = some c := by
  cases h with
  | wait => exact hserved
  | _ => cases hserved

theorem Moves.served (h : Moves t u) (hserved : u.served = some c) : t.served = some c := by
  induction h with
  | refl => exact hserved
  | tail _ hlast ih => exact ih (hlast.served hserved)

theorem Moves.holder (h : Moves t u) (hholder : t.holder = some c) :
    u.holder = some c ∨ t.served = some c := by
  induction h with
  | refl => exact .inl hholder
  | tail hmoves hlast ih =>
    refine ih.elim (fun hsame => ?_) .inr
    exact (hlast.holder hsame).imp_right (Moves.served hmoves)

theorem Moves.ne_start (h : Moves t u) (hstart : t ≠ start) : u ≠ start := by
  induction h with
  | refl => exact hstart
  | tail _ hlast _ => exact hlast.ne_start

theorem served_holder (h : t.served = some c) : t.holder = some c := by
  cases t with
  | granted c' offer =>
    cases offer with
    | offered => cases h
    | taken => exact h
  | grantWait => exact h
  | _ => cases h

end Turn

namespace FlipFlopAutomata

variable {a : FlipFlopAutomata} {s t : Layout (FlipFlopBit a)} {turn : Turn (Fin a.clients)}

/-- The bits are on for these clients only. -/
structure Marks (bits : FlipFlopBit a → Bool)
    (holder offered taken : Option (Fin a.clients)) : Prop where
  next : ∀ c, bits (.next c) = true ↔ some c = holder
  granted : ∀ c, bits (.granted c) = true ↔ some c = offered
  taken : ∀ c, bits (.taken c) = true ↔ some c = taken

namespace Marks

variable {bits : FlipFlopBit a → Bool} {holder offered taken : Option (Fin a.clients)}
  {c : Fin a.clients}

theorem next_on (h : Marks bits none offered taken) :
    Marks (Function.update bits (.next c) true) (some c) offered taken where
  next c' := by simp [Function.update_apply, h.next c']
  granted c' := by simpa using h.granted c'
  taken c' := by simpa using h.taken c'

theorem next_off (h : Marks bits (some c) offered taken) :
    Marks (Function.update bits (.next c) false) none offered taken where
  next c' := by simp [Function.update_apply, h.next c']
  granted c' := by simpa using h.granted c'
  taken c' := by simpa using h.taken c'

theorem granted_on (h : Marks bits holder none taken) :
    Marks (Function.update bits (.granted c) true) holder (some c) taken where
  next c' := by simpa using h.next c'
  granted c' := by simp [Function.update_apply, h.granted c']
  taken c' := by simpa using h.taken c'

theorem granted_off (h : Marks bits holder (some c) taken) :
    Marks (Function.update bits (.granted c) false) holder none taken where
  next c' := by simpa using h.next c'
  granted c' := by simp [Function.update_apply, h.granted c']
  taken c' := by simpa using h.taken c'

theorem taken_on (h : Marks bits holder offered none) :
    Marks (Function.update bits (.taken c) true) holder offered (some c) where
  next c' := by simpa using h.next c'
  granted c' := by simpa using h.granted c'
  taken c' := by simp [Function.update_apply, h.taken c']

theorem taken_off (h : Marks bits holder offered (some c)) :
    Marks (Function.update bits (.taken c) false) holder offered none where
  next c' := by simpa using h.next c'
  granted c' := by simpa using h.granted c'
  taken c' := by simp [Function.update_apply, h.taken c']

theorem request (h : Marks bits holder offered taken) (value : Bool) :
    Marks (Function.update bits (.request c) value) holder offered taken where
  next c' := by simpa using h.next c'
  granted c' := by simpa using h.granted c'
  taken c' := by simpa using h.taken c'

theorem stealRequest (h : Marks bits holder offered taken) (value : Bool) :
    Marks (Function.update bits .stealRequest value) holder offered taken where
  next c' := by simpa using h.next c'
  granted c' := by simpa using h.granted c'
  taken c' := by simpa using h.taken c'

theorem stealGranted (h : Marks bits holder offered taken) (value : Bool) :
    Marks (Function.update bits .stealGranted value) holder offered taken where
  next c' := by simpa using h.next c'
  granted c' := by simpa using h.granted c'
  taken c' := by simpa using h.taken c'

end Marks

/-- The state and the bits show whose turn it is. -/
structure Shows (s : Layout (FlipFlopBit a)) (turn : Turn (Fin a.clients)) : Prop where
  state : s.state = UInt8.ofNat turn.state
  marks : Marks s.bits turn.holder turn.offered turn.taken

theorem Shows.state_eq (h : Shows s turn) {state : Nat} (hstate : s.state = UInt8.ofNat state)
    (hsmall : state < 256) : turn.state = state := by
  have hturn : turn.state < 256 := by
    cases turn <;> simp [Turn.state, stInit, stFree, stLocked, stGranted, stGrantWait,
      stStealOnHold, stStolen, stStolenWait]
  have heq := congrArg UInt8.toNat (h.state.symm.trans hstate)
  simpa [Nat.mod_eq_of_lt hsmall, Nat.mod_eq_of_lt hturn] using heq

theorem Shows.eq_free (h : Shows s turn) (hstate : s.state = UInt8.ofNat stFree) :
    turn = .free := by
  have heq := h.state_eq hstate (by decide)
  cases turn with
  | free => rfl
  | _ => cases heq

theorem Shows.eq_locked (h : Shows s turn) (hstate : s.state = UInt8.ofNat stLocked) :
    ∃ c, turn = .locked c := by
  have heq := h.state_eq hstate (by decide)
  cases turn with
  | locked c => exact ⟨c, rfl⟩
  | _ => cases heq

theorem Shows.eq_granted (h : Shows s turn) (hstate : s.state = UInt8.ofNat stGranted) :
    ∃ c offer, turn = .granted c offer := by
  have heq := h.state_eq hstate (by decide)
  cases turn with
  | granted c offer => exact ⟨c, offer, rfl⟩
  | _ => cases heq

theorem Shows.eq_grantWait (h : Shows s turn) (hstate : s.state = UInt8.ofNat stGrantWait) :
    ∃ c, turn = .grantWait c := by
  have heq := h.state_eq hstate (by decide)
  cases turn with
  | grantWait c => exact ⟨c, rfl⟩
  | _ => cases heq

theorem Shows.eq_stealOnHold (h : Shows s turn)
    (hstate : s.state = UInt8.ofNat stStealOnHold) : ∃ c, turn = .stealOnHold c := by
  have heq := h.state_eq hstate (by decide)
  cases turn with
  | stealOnHold c => exact ⟨c, rfl⟩
  | _ => cases heq

theorem Shows.eq_stolen (h : Shows s turn) (hstate : s.state = UInt8.ofNat stStolen) :
    ∃ c thief offer, turn = .stolen c thief offer := by
  have heq := h.state_eq hstate (by decide)
  cases turn with
  | stolen c thief offer => exact ⟨c, thief, offer, rfl⟩
  | _ => cases heq

theorem Shows.eq_stolenWait (h : Shows s turn) (hstate : s.state = UInt8.ofNat stStolenWait) :
    ∃ c, turn = .stolenWait c := by
  have heq := h.state_eq hstate (by decide)
  cases turn with
  | stolenWait c => exact ⟨c, rfl⟩
  | _ => cases heq

/-- The operations of a client that move the turn, in the order of the source. -/
theorem Shows.clientLogic (h : Shows s turn) {c : Fin a.clients} {op : FlipFlopOp a}
    (hop : op ∈ a.clientLogic c) : ∃ turn', turn.Moves turn' ∧ Shows (s.exec op) turn' := by
  rcases s.exec_cases op with heq | ⟨hifs, heq⟩
  · rw [heq]
    exact ⟨turn, .refl, h⟩
  rw [heq]
  have hstate : ∀ state, .ifState state ∈ op.ifs → s.state = UInt8.ofNat state :=
    fun state hif => (Layout.test_ifState s).mp (hifs _ hif)
  have hon : ∀ var, .ifReg1 var ∈ op.ifs → s.bits var = true :=
    fun var hif => (Layout.test_ifReg1 s).mp (hifs _ hif)
  clear heq hifs
  simp only [FlipFlopAutomata.clientLogic, List.mem_cons, List.not_mem_nil, or_false] at hop
  rcases hop with rfl | rfl | rfl | rfl | rfl | rfl | rfl | rfl | rfl | rfl | rfl | rfl | rfl | rfl
  · obtain rfl := h.eq_free (hstate _ (by simp))
    exact ⟨.locked c, .single (.lock c), rfl, h.marks.next_on⟩
  · obtain ⟨holder, rfl⟩ := h.eq_locked (hstate _ (by simp))
    obtain rfl := Option.some.inj ((h.marks.next c).mp (hon _ (by simp)))
    exact ⟨.granted c .offered, .single (.grant c), rfl, h.marks.granted_on⟩
  · obtain ⟨holder, offer, rfl⟩ := h.eq_granted (hstate _ (by simp))
    have hoffered := (h.marks.granted c).mp (hon _ (by simp))
    cases offer with
    | offered =>
      obtain rfl := Option.some.inj hoffered
      exact ⟨.locked c, .single (.retract c), rfl, h.marks.granted_off⟩
    | taken => cases hoffered
  · obtain ⟨holder, offer, rfl⟩ := h.eq_granted (hstate _ (by simp))
    have htaken := (h.marks.taken c).mp (hon _ (by simp))
    cases offer with
    | offered => cases htaken
    | taken =>
      obtain rfl := Option.some.inj htaken
      exact ⟨.grantWait c, .single (.wait c), rfl, h.marks.taken_off⟩
  · obtain ⟨holder, rfl⟩ := h.eq_grantWait (hstate _ (by simp))
    obtain rfl := Option.some.inj ((h.marks.next c).mp (hon _ (by simp)))
    exact ⟨.free, .single (.pass c), rfl, h.marks.next_off⟩
  · exact ⟨turn, .refl, h.state, h.marks.stealRequest true⟩
  · exact ⟨turn, .refl, h.state, (h.marks.stealRequest false).stealGranted false⟩
  · obtain ⟨holder, rfl⟩ := h.eq_locked (hstate _ (by simp))
    exact ⟨.stolen holder c .offered, .single (.steal holder c), rfl,
      ((h.marks.stealRequest false).stealGranted false).granted_on⟩
  · obtain ⟨holder, thief, offer, rfl⟩ := h.eq_stolen (hstate _ (by simp))
    have hoffered := (h.marks.granted c).mp (hon _ (by simp))
    cases offer with
    | offered =>
      obtain rfl := Option.some.inj hoffered
      exact ⟨.locked holder, .single (.retractStolen holder c), rfl, h.marks.granted_off⟩
    | taken => cases hoffered
  · obtain ⟨holder, thief, offer, rfl⟩ := h.eq_stolen (hstate _ (by simp))
    have htaken := (h.marks.taken c).mp (hon _ (by simp))
    cases offer with
    | offered => cases htaken
    | taken =>
      obtain rfl := Option.some.inj htaken
      exact ⟨.stolenWait holder, .single (.waitStolen holder c), rfl, h.marks.taken_off⟩
  · obtain ⟨holder, rfl⟩ := h.eq_locked (hstate _ (by simp))
    exact ⟨.stealOnHold holder, .single (.hold holder), rfl, h.marks⟩
  · obtain ⟨holder, rfl⟩ := h.eq_stealOnHold (hstate _ (by simp))
    exact ⟨.locked holder, .single (.resume holder), rfl, h.marks.stealGranted true⟩
  · obtain ⟨holder, rfl⟩ := h.eq_stealOnHold (hstate _ (by simp))
    exact ⟨.locked holder, .single (.resume holder), rfl, h.marks⟩
  · obtain ⟨holder, rfl⟩ := h.eq_stolenWait (hstate _ (by simp))
    exact ⟨.locked holder, .single (.takeBack holder), rfl,
      (h.marks.stealRequest false).stealGranted false⟩

/-! ### Runs -/

theorem body_eq : a.body = ⟨[.ifState stInit], [.actState stFree]⟩ ::
    ((List.finRange a.clients).flatMap a.clientLogic ++
      [⟨[.ifState stInit], [.actState stBase]⟩]) := by
  simp [body, flipFlopLogic, Plugins.runAll, Plugins.addAutomataPlugin, Plugins.init]

/-- Only at the start the automaton is in its initial state. -/
theorem Shows.state_ne (h : Shows s turn) (hstart : turn ≠ .start) :
    s.state ≠ UInt8.ofNat stInit := by
  intro hstate
  have heq := h.state_eq hstate (by decide)
  cases turn with
  | start => exact hstart rfl
  | _ => cases heq

/-- The first operation leaves the initial state. -/
theorem Shows.begin (h : Shows s turn) : ∃ turn', turn.Moves turn' ∧ turn' ≠ .start ∧
    Shows (s.exec (⟨[.ifState stInit], [.actState stFree]⟩ : FlipFlopOp a)) turn' := by
  by_cases hstart : turn = .start
  · subst hstart
    have hinit : s.state = UInt8.ofNat stInit := h.state
    rw [Layout.exec_ifState s hinit]
    exact ⟨.free, .single .begin, by simp, rfl, h.marks⟩
  · rw [Layout.exec_of_state_ne s (h.state_ne hstart) (by simp)]
    exact ⟨turn, .refl, hstart, h⟩

/-- A run moves the turn. -/
theorem Shows.run (h : Shows s turn) :
    ∃ turn', turn.Moves turn' ∧ Shows (s.run a.body) turn' := by
  obtain ⟨first, hfirst, hne, hshows⟩ := h.begin
  obtain ⟨last, hlast, hne, hshows⟩ : ∃ last, turn.Moves last ∧ last ≠ .start ∧
      Shows ((s.exec (⟨[.ifState stInit], [.actState stFree]⟩ : FlipFlopOp a)).run
        ((List.finRange a.clients).flatMap a.clientLogic)) last := by
    refine Layout.run_keeps (I := fun t => ∃ last, turn.Moves last ∧ last ≠ .start ∧ Shows t last)
      _ ⟨first, hfirst, hne, hshows⟩ fun op hop t ⟨before, hbefore, hne, hshows⟩ => ?_
    obtain ⟨c, -, hop⟩ := List.mem_flatMap.mp hop
    obtain ⟨after, hafter, hshows⟩ := hshows.clientLogic hop
    exact ⟨after, hbefore.trans hafter, hafter.ne_start hne, hshows⟩
  have hbody : s.run a.body = (s.exec (⟨[.ifState stInit], [.actState stFree]⟩ : FlipFlopOp a)).run
      ((List.finRange a.clients).flatMap a.clientLogic) := by
    rw [body_eq]
    show (s.exec _).run _ = _
    rw [Layout.run_append]
    exact Layout.exec_of_state_ne _ (hshows.state_ne hne) (by simp)
  rw [hbody]
  exact ⟨last, hlast, hshows⟩

theorem initial_shows (h : Initial s) : Shows s .start where
  state := h.state
  marks := by constructor <;> intro c <;> simp [h.bits, Turn.holder, Turn.offered, Turn.taken]

/-- A client takes the permission that it is offered. -/
theorem Shows.take (h : Shows s turn) {c : Fin a.clients} (hgranted : s.bits (.granted c) = true) :
    (turn = .granted c .offered ∧ Shows (take c s) (.granted c .taken)) ∨
      ∃ holder, turn = .stolen holder c .offered ∧ Shows (take c s) (.stolen holder c .taken) := by
  have hoffered := (h.marks.granted c).mp hgranted
  have hmarks : Marks s.bits turn.holder (some c) turn.taken := hoffered ▸ h.marks
  cases turn with
  | granted holder offer =>
    cases offer with
    | offered =>
      obtain rfl := Option.some.inj hoffered
      exact .inl ⟨rfl, h.state, ((hmarks.request false).granted_off).taken_on⟩
    | taken => cases hoffered
  | stolen holder thief offer =>
    cases offer with
    | offered =>
      obtain rfl := Option.some.inj hoffered
      exact .inr ⟨holder, rfl, h.state, ((hmarks.request false).granted_off).taken_on⟩
    | taken => cases hoffered
  | _ => cases hoffered

/-- In this history the client has taken the permission of its own turn, which has been its turn
since. -/
def Took (s : Layout (FlipFlopBit a)) (history : List (Event a)) (c : Fin a.clients) : Prop :=
  ∃ past future t, history = past ++ .take c :: future ∧ Trace.run step s past = some t ∧
    t.state = UInt8.ofNat stGranted ∧
    Trace.Always step (fun _ u => u.bits (.next c) = true) t (.take c :: future)

/-- What an event does to the turn: clients take what they are offered, and the automaton does the
rest. -/
theorem Shows.step (h : Shows s turn) {event : Event a} (hstep : step s event = some t) :
    ∃ turn', Shows t turn' ∧
      (∀ c, turn'.served = some c → turn.served = some c ∨
        (event = .take c ∧ turn = .granted c .offered)) ∧
      ∀ c, turn.holder = some c → turn'.holder = some c ∨ turn.served = some c := by
  cases event with
  | run =>
    cases hstep
    obtain ⟨turn', hmoves, hshows⟩ := h.run
    exact ⟨turn', hshows, fun c hserved => .inl (hmoves.served hserved),
      fun c hholder => hmoves.holder hholder⟩
  | tick =>
    cases hstep
    exact ⟨turn, ⟨h.state, h.marks⟩, fun _ => .inl, fun _ => .inl⟩
  | request client value =>
    cases hstep
    exact ⟨turn, ⟨h.state, h.marks.request value⟩, fun _ => .inl, fun _ => .inl⟩
  | take client =>
    rw [FlipFlopAutomata.step, Option.ite_none_right_eq_some] at hstep
    obtain ⟨hboth, heq⟩ := hstep
    cases heq
    rcases h.take (Bool.and_eq_true_iff.mp hboth).2 with ⟨rfl, hshows⟩ | ⟨holder, rfl, hshows⟩
    · refine ⟨.granted client .taken, hshows, fun c hserved => ?_, fun _ => .inl⟩
      obtain rfl := Option.some.inj hserved
      exact .inr ⟨rfl, rfl⟩
    · exact ⟨.stolen holder client .taken, hshows, fun _ => .inl, fun _ => .inl⟩

theorem Shows.next_of_served (h : Shows s turn) {c : Fin a.clients}
    (hserved : turn.served = some c) : s.bits (.next c) = true :=
  (h.marks.next c).mpr (Turn.served_holder hserved).symm

/-- Whoever has taken the permission of its turn did so in the history, and it is its turn
since. -/
theorem shows_run {history : List (Event a)} (hinit : Initial s)
    (hrun : Trace.run step s history = some t) :
    ∃ turn, Shows t turn ∧ ∀ c, turn.served = some c → Took s history c := by
  refine Trace.invariant (P := fun _ _ _ _ => True)
    (I := fun history t => ∃ turn, Shows t turn ∧ ∀ c, turn.served = some c → Took s history c)
    ⟨.start, initial_shows hinit, fun c hserved => by cases hserved⟩
    (fun past event t u hpast ⟨turn, hshows, htook⟩ _ hstep => ?_)
    (fun _ _ _ _ _ _ _ _ => trivial) hrun
  obtain ⟨turn', hshows', hserved', -⟩ := hshows.step hstep
  refine ⟨turn', hshows', fun c hserved => ?_⟩
  have hlast := hshows'.next_of_served hserved
  rcases hserved' c hserved with hbefore | ⟨rfl, rfl⟩
  · obtain ⟨earlier, since, v, rfl, hearlier, hstate, halways⟩ := htook c hbefore
    refine ⟨earlier, since ++ [event], v, by simp, hearlier, hstate, ?_⟩
    refine Trace.Always.concat halways fun w hw => ?_
    have hwhole : Trace.run FlipFlopAutomata.step s
        (earlier ++ .take c :: since ++ [event]) = some w := by
      rw [List.append_assoc, Trace.run_append, hearlier]
      exact hw
    rw [Trace.run_concat, hpast] at hwhole
    obtain rfl := Option.some.inj (hstep.symm.trans hwhole)
    exact hlast
  · refine ⟨past, [], t, rfl, hpast, hshows.state, ?_⟩
    have hstart : Trace.Always FlipFlopAutomata.step (fun _ w => w.bits (.next c) = true) t [] := by
      intro before after w heq hrun
      obtain ⟨rfl, -⟩ := List.append_eq_nil_iff.mp heq.symm
      cases hrun
      exact (hshows.marks.next c).mpr rfl
    refine Trace.Always.concat hstart fun w hw => ?_
    rw [Trace.run_concat] at hw
    obtain rfl := Option.some.inj (hstep.symm.trans hw)
    exact hlast

end FlipFlopAutomata

/-- In every state at most one client is granted a permission, the one whose turn it is or one that
has stolen the turn; it is the turn of exactly one client; and a turn ends only when the permission
of this turn has been taken. -/
theorem one_permission_granted (a : FlipFlopAutomata) {s t : Layout (FlipFlopBit a)}
    {history : List (FlipFlopAutomata.Event a)} (hinit : FlipFlopAutomata.Initial s)
    (hrun : Trace.run FlipFlopAutomata.step s history = some t) :
    (∀ c c', t.bits (.granted c) = true → t.bits (.granted c') = true → c = c') ∧
    (∀ c, t.bits (.granted c) = true →
      (t.state = UInt8.ofNat stGranted ∧ t.bits (.next c) = true) ∨
        t.state = UInt8.ofNat stStolen) ∧
    (t.state ≠ UInt8.ofNat stInit → t.state ≠ UInt8.ofNat stFree →
      ∃! c, t.bits (.next c) = true) ∧
    ∀ event u c, FlipFlopAutomata.step t event = some u → t.bits (.next c) = true →
      u.bits (.next c) = false →
      ∃ past future v, history = past ++ .take c :: future ∧
        Trace.run FlipFlopAutomata.step s past = some v ∧ v.state = UInt8.ofNat stGranted ∧
        Trace.Always FlipFlopAutomata.step (fun _ w => w.bits (.next c) = true) v
          (.take c :: future) := by
  obtain ⟨turn, hshows, htook⟩ := FlipFlopAutomata.shows_run hinit hrun
  refine ⟨fun c c' hgranted hgranted' => ?_, fun c hgranted => ?_, fun hinit hfree => ?_,
    fun event u c hstep hnext hpassed => ?_⟩
  · have hc := (hshows.marks.granted c).mp hgranted
    exact Option.some.inj (hc.trans ((hshows.marks.granted c').mp hgranted').symm)
  · rcases hshows.take hgranted with ⟨rfl, -⟩ | ⟨holder, rfl, -⟩
    · exact .inl ⟨hshows.state, (hshows.marks.next c).mpr rfl⟩
    · exact .inr hshows.state
  · obtain ⟨c, hholder⟩ : ∃ c, turn.holder = some c := by
      cases turn with
      | start => exact absurd hshows.state hinit
      | free => exact absurd hshows.state hfree
      | _ => exact ⟨_, rfl⟩
    refine ⟨c, (hshows.marks.next c).mpr hholder.symm, fun c' hnext => ?_⟩
    exact Option.some.inj (((hshows.marks.next c').mp hnext).trans hholder)
  · obtain ⟨turn', hshows', -, hholder⟩ := hshows.step hstep
    rcases hholder c ((hshows.marks.next c).mp hnext).symm with hsame | hserved
    · rw [(hshows'.marks.next c).mpr hsame.symm] at hpassed
      cases hpassed
    · exact htook c hserved

/-- Two clients before the first run. -/
def twoClients : Layout (FlipFlopBit ⟨2, le_rfl⟩) := ⟨0, 0, 0, fun _ => false, fun _ _ => 0⟩

/-- The first client asks and is granted the permission; the second one is not. -/
theorem twoClients_one_permission :
    ((twoClients.setBit (.request 0) true).run (FlipFlopAutomata.body _)).bits
      (.granted 0) = true ∧
    ((twoClients.setBit (.request 0) true).run (FlipFlopAutomata.body _)).bits
      (.granted 1) = false := by
  have hgranted : ((twoClients.setBit (.request 0) true).run (FlipFlopAutomata.body _)).bits
      (.granted 0) = true := by
    set_option maxRecDepth 2000 in
    decide
  have hinit : FlipFlopAutomata.Initial twoClients := ⟨rfl, fun _ => rfl⟩
  have hrun : Trace.run FlipFlopAutomata.step twoClients [.request 0 true, .run] =
      some ((twoClients.setBit (.request 0) true).run (FlipFlopAutomata.body _)) := rfl
  generalize (twoClients.setBit (.request 0) true).run (FlipFlopAutomata.body _) = t
    at hgranted hrun ⊢
  refine ⟨hgranted, Bool.eq_false_iff.mpr fun hother => ?_⟩
  exact absurd ((one_permission_granted _ hinit hrun).1 0 1 hgranted hother) (by decide)

end OpenmrnCue.Automata
