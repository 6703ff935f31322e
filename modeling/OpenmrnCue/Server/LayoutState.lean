import Mathlib.Data.List.Basic

/-! `LayoutState.hxx` and `LayoutState.cxx`: the state of the layout as the server knows it, with
timestamps, and with listeners that wait for a change. -/

namespace OpenmrnCue.Server

/-- `TimestampedState`.  A listener stands for its closure. -/
structure TimestampedState where
  tsUsec : Nat := 0
  listeners : List Nat := []
deriving DecidableEq, Repr

/-- `Touch`: the new state, and the listeners that are called. -/
def TimestampedState.touch (st : TimestampedState) (newTs : Nat) : TimestampedState × List Nat :=
  if newTs > st.tsUsec then ({ tsUsec := newTs, listeners := [] }, st.listeners) else (st, [])

/-- `AddListener`: the new state, and the listener if it is called at once. -/
def TimestampedState.addListener (st : TimestampedState) (lastTimestamp done : Nat) :
    TimestampedState × List Nat :=
  if st.tsUsec ≤ lastTimestamp then ({ st with listeners := st.listeners ++ [done] }, [])
  else (st, [done])

structure FnState extends TimestampedState where
  value : Int := 0
deriving DecidableEq, Repr

structure SpeedAndDirState extends TimestampedState where
  dir : Int := 1
  speed : Int := 0
deriving DecidableEq, Repr

structure LokState extends TimestampedState where
  fn : Std.TreeMap Int FnState := ∅
  speedAndDir : SpeedAndDirState := {}

structure LayoutState extends TimestampedState where
  loks : Std.TreeMap Int LokState := ∅
  stop : Bool := true

def FnState.touched (st : FnState) (ts : Nat) : FnState :=
  { st with toTimestampedState := (st.touch ts).1 }

def SpeedAndDirState.touched (st : SpeedAndDirState) (ts : Nat) : SpeedAndDirState :=
  { st with toTimestampedState := (st.touch ts).1 }

def LokState.touched (st : LokState) (ts : Nat) : LokState :=
  { st with toTimestampedState := (st.touch ts).1 }

def LayoutState.touched (state : LayoutState) (ts : Nat) : LayoutState :=
  { state with toTimestampedState := (state.touch ts).1 }

/-- `TouchAllLoks`, in the order of the map. -/
def LayoutState.touchAllLoks (state : LayoutState) (ts : Nat) : LayoutState × List Nat :=
  ({ state.touched ts with loks := state.loks.map fun _ st => st.touched ts },
    (state.loks.toList.flatMap fun e => (e.2.touch ts).2) ++ (state.touch ts).2)

/-- The entry of a train, which is made when it does not exist. -/
def LayoutState.lok (state : LayoutState) (id : Int) : LokState := state.loks[id]?.getD {}

/-! The assignments to an entry, and of an entry. -/

def LokState.withSpeed (st : LokState) (sst : SpeedAndDirState) : LokState :=
  { st with speedAndDir := sst }

def LokState.withFn (st : LokState) (fnid : Int) (fst : FnState) : LokState :=
  { st with fn := st.fn.insert fnid fst }

def LayoutState.withLok (state : LayoutState) (id : Int) (st : LokState) : LayoutState :=
  { state with loks := state.loks.insert id st }

/-- A lok of `TrainControlResponse_LokDb`. -/
structure LokDbEntry where
  id : Int
  function : List Int
deriving DecidableEq, Repr

theorem getElem?_insert {α : Type} (m : Std.TreeMap Int α) (key k : Int) (x : α) :
    (m.insert key x)[k]? = if k = key then some x else m[k]? := by
  rw [Std.TreeMap.getElem?_insert]
  by_cases hk : k = key
  · simp [hk]
  · simp [hk, Ne.symm hk]

/-- `ZeroLayoutState`. -/
def LayoutState.zeroLayoutState (state : LayoutState) (lokdb : List LokDbEntry) : LayoutState :=
  lokdb.foldl (fun state lok =>
    let st := state.lok lok.id
    let st := { st with fn := lok.function.foldl (fun fn id => fn.insert id {}) st.fn }
    state.withLok lok.id st) state

end OpenmrnCue.Server
