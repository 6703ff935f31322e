import OpenmrnCue.Server.LayoutMirror
import OpenmrnCue.Library.MapSum

/-! Clients that read the state of a train or of the layout with its timestamp, and then wait until
it changes. -/

namespace OpenmrnCue.Server

/-! ### Every listener is called at most once -/

/-- How often the listener waits in a state, with all that is nested in it. -/
def LokState.waiting (l : Nat) (st : LokState) : Nat :=
  st.listeners.count l + st.speedAndDir.listeners.count l +
    MapSum.sum st.fn fun fst => fst.listeners.count l

def LayoutState.waiting (l : Nat) (state : LayoutState) : Nat :=
  state.listeners.count l + MapSum.sum state.loks (LokState.waiting l)

/-- How often the listener is added. -/
def ServerStep.added (l : Nat) : ServerStep → Nat
  | .waitForChange _ _ done => if done = l then 1 else 0
  | _ => 0

/-- A touch calls a listener, or keeps it. -/
theorem count_touch (st : TimestampedState) (ts l : Nat) :
    (st.touch ts).2.count l + (st.touch ts).1.listeners.count l = st.listeners.count l := by
  unfold TimestampedState.touch
  split
  · simp
  · simp

theorem count_addListener (st : TimestampedState) (ts done l : Nat) :
    (st.addListener ts done).2.count l + (st.addListener ts done).1.listeners.count l =
      st.listeners.count l + if done = l then 1 else 0 := by
  unfold TimestampedState.addListener
  split
  · simp [List.count_singleton]
  · simp [List.count_singleton, Nat.add_comm]

theorem waiting_touched (st : LokState) (ts l : Nat) :
    (st.touch ts).2.count l + (st.touched ts).waiting l = st.waiting l := by
  have h := count_touch st.toTimestampedState ts l
  simp only [LokState.waiting, LokState.touched]
  omega

/-- A new entry takes the place of the old one. -/
theorem waiting_insert (state : LayoutState) (key : Int) (st : LokState) (l : Nat) :
    (state.withLok key st).waiting l + (state.lok key).waiting l =
      state.waiting l + st.waiting l := by
  have h := MapSum.sum_insert state.loks key st (LokState.waiting l)
  have hlok : (state.loks[key]?.map (LokState.waiting l)).getD 0 = (state.lok key).waiting l := by
    rw [LayoutState.lok]
    cases state.loks[key]? with
    | none => rfl
    | some st => rfl
  rw [hlok] at h
  simp only [LayoutState.waiting, LayoutState.withLok]
  omega

section Counts

variable (state : LayoutState) (ts l : Nat)

theorem count_touchAllLoks :
    (state.touchAllLoks ts).2.count l + (state.touchAllLoks ts).1.waiting l =
      state.waiting l := by
  have hlayout := count_touch state.toTimestampedState ts l
  have hloks : (state.loks.toList.flatMap fun e => (e.2.touch ts).2).count l +
      MapSum.sum state.loks (fun st => (st.touched ts).waiting l) =
        MapSum.sum state.loks (LokState.waiting l) := by
    rw [List.count_flatMap]
    show MapSum.sum state.loks (fun st => (st.touch ts).2.count l) + _ = _
    rw [← MapSum.sum_add]
    simp only [waiting_touched]
  simp only [LayoutState.waiting, LayoutState.touchAllLoks, LayoutState.touched,
    List.count_append, MapSum.sum_map]
  omega

theorem count_touchLok (key : Int) (st : LokState) :
    (state.touchLok ts key st).2.count l + (state.touchLok ts key st).1.waiting l +
      (state.lok key).waiting l = state.waiting l + st.waiting l := by
  have hlayout := count_touch state.toTimestampedState ts l
  have hst := waiting_touched st ts l
  have hinsert := waiting_insert state key (st.touched ts) l
  simp only [LayoutState.waiting, LayoutState.withLok] at hinsert
  simp only [LayoutState.waiting, LayoutState.touchLok, LayoutState.withLok, LayoutState.touched,
    List.count_append]
  omega

/-- A speed that is not new changes nothing, and a new one touches the speed, the train and the
layout. -/
theorem setSpeed_cases (key : Int) (value : Int32) :
    state.setSpeed ts key value = (state.withLok key (state.lok key), []) ∨
      ∃ sst : SpeedAndDirState,
        sst.toTimestampedState = (state.lok key).speedAndDir.toTimestampedState ∧
        state.setSpeed ts key value =
          ((state.touchLok ts key ((state.lok key).withSpeed (sst.touched ts))).1,
            (sst.touch ts).2 ++
              (state.touchLok ts key ((state.lok key).withSpeed (sst.touched ts))).2) := by
  by_cases h : (if value &&& 0x80 ≠ 0 then -1 else 1) ≠ (state.lok key).speedAndDir.dir ∨
      (value &&& 0x7f).toInt ≠ (state.lok key).speedAndDir.speed
  · refine .inr ⟨{ (state.lok key).speedAndDir with
      dir := if value &&& 0x80 ≠ 0 then -1 else 1
      speed := (value &&& 0x7f).toInt }, rfl, ?_⟩
    simp only [LayoutState.setSpeed, if_pos h]
  · refine .inl ?_
    simp only [LayoutState.setSpeed, if_neg h]

/-- A value of a function that is not new changes nothing but that the train has the function, and a
new one touches the function, the train and the layout. -/
theorem setFn_cases (key fnid value : Int) :
    state.setFn ts key fnid value =
        (state.withLok key ((state.lok key).withFn fnid ((state.lok key).fn[fnid]?.getD {})), []) ∨
      ∃ fst : FnState,
        fst.toTimestampedState = ((state.lok key).fn[fnid]?.getD {}).toTimestampedState ∧
        state.setFn ts key fnid value =
          ((state.touchLok ts key ((state.lok key).withFn fnid (fst.touched ts))).1,
            (fst.touch ts).2 ++
              (state.touchLok ts key ((state.lok key).withFn fnid (fst.touched ts))).2) := by
  by_cases h : ((state.lok key).fn[fnid]?.getD {}).value ≠ value
  · refine .inr ⟨{ (state.lok key).fn[fnid]?.getD {} with value := value }, rfl, ?_⟩
    simp only [LayoutState.setFn, if_pos h]
  · refine .inl ?_
    simp only [LayoutState.setFn, if_neg h]

theorem count_setSpeed (key : Int) (value : Int32) :
    (state.setSpeed ts key value).2.count l + (state.setSpeed ts key value).1.waiting l =
      state.waiting l := by
  rcases setSpeed_cases state ts key value with h | ⟨sst, hsst, h⟩
  · have hinsert := waiting_insert state key (state.lok key) l
    rw [h]
    dsimp only
    rw [List.count_nil]
    omega
  · have htouch := count_touchLok state ts l key ((state.lok key).withSpeed (sst.touched ts))
    have hcount := count_touch sst.toTimestampedState ts l
    have hst : ((state.lok key).withSpeed (sst.touched ts)).waiting l +
        (sst.touch ts).2.count l = (state.lok key).waiting l := by
      simp only [LokState.waiting, LokState.withSpeed, SpeedAndDirState.touched, ← hsst]
      omega
    rw [h]
    dsimp only
    rw [List.count_append]
    omega

theorem count_setFn (key fnid value : Int) :
    (state.setFn ts key fnid value).2.count l + (state.setFn ts key fnid value).1.waiting l =
      state.waiting l := by
  have hold : ((state.lok key).fn[fnid]?.map fun fst => fst.listeners.count l).getD 0 =
      ((state.lok key).fn[fnid]?.getD {}).listeners.count l := by
    cases (state.lok key).fn[fnid]? with
    | none => rfl
    | some fst => rfl
  have hentry : ∀ fst : FnState, ((state.lok key).withFn fnid fst).waiting l +
      ((state.lok key).fn[fnid]?.getD {}).listeners.count l =
        (state.lok key).waiting l + fst.listeners.count l := by
    intro fst
    have hsum := MapSum.sum_insert (state.lok key).fn fnid fst fun fst => fst.listeners.count l
    rw [hold] at hsum
    simp only [LokState.waiting, LokState.withFn]
    omega
  rcases setFn_cases state ts key fnid value with h | ⟨fst, hfst, h⟩
  · have hinsert := waiting_insert state key
      ((state.lok key).withFn fnid ((state.lok key).fn[fnid]?.getD {})) l
    have hsame := hentry ((state.lok key).fn[fnid]?.getD {})
    rw [h]
    dsimp only
    rw [List.count_nil]
    omega
  · have htouch := count_touchLok state ts l key ((state.lok key).withFn fnid (fst.touched ts))
    have hcount := count_touch fst.toTimestampedState ts l
    have hnew := hentry (fst.touched ts)
    have htouched : (fst.touched ts).listeners = (fst.touch ts).1.listeners := rfl
    rw [htouched, ← hfst] at hnew
    rw [h]
    dsimp only
    rw [List.count_append]
    omega

theorem count_waitForChange (target : Target) (timestamp done : Nat) :
    (state.waitForChange target timestamp done).2.count l +
        (state.waitForChange target timestamp done).1.waiting l ≤
      state.waiting l + if done = l then 1 else 0 := by
  cases target with
  | none =>
    have hadd := count_addListener state.toTimestampedState timestamp done l
    simp only [LayoutState.waitForChange, LayoutState.waiting]
    omega
  | some id =>
    cases hid : state.loks[id]? with
    | none =>
      simp only [LayoutState.waitForChange, hid, List.count_nil]
      omega
    | some st =>
      have hadd := count_addListener st.toTimestampedState timestamp done l
      have hinsert := waiting_insert state id
        { st with toTimestampedState := (st.addListener timestamp done).1 } l
      have hlok : state.lok id = st := by rw [LayoutState.lok, hid]; rfl
      rw [hlok] at hinsert
      simp only [LokState.waiting] at hinsert
      simp only [LayoutState.waitForChange, hid]
      omega

theorem count_packetArrived (nsec : Nat) (packet : List UInt8) :
    (state.packetArrived nsec packet).2.count l + (state.packetArrived nsec packet).1.waiting l =
      state.waiting l := by
  rw [packetArrived_eq]
  cases decodePacket packet with
  | none => simp
  | some content =>
    cases content with
    | stop value =>
      show (state.setStop _ _).2.count l + (state.setStop _ _).1.waiting l = _
      unfold LayoutState.setStop
      split
      · exact count_touchAllLoks { state with stop := value != 0 } _ l
      · simp
    | train address fn value =>
      simp only [Option.elim_some, LayoutState.deliver]
      split
      · exact count_setSpeed state _ l _ _
      · exact count_setFn state _ l _ _ _

end Counts

theorem count_step (state : LayoutState) (step : ServerStep) (l : Nat) :
    (state.step step).2.count l + (state.step step).1.waiting l ≤
      state.waiting l + step.added l := by
  cases step with
  | packet nsec packet => exact (count_packetArrived state l nsec packet).le
  | emergencyStop nsec stop => exact (count_touchAllLoks { state with stop := stop } _ l).le
  | waitForChange target timestamp done => exact count_waitForChange state l target timestamp done

/-- No listener is called more often than it has been added. -/
theorem count_run (state : LayoutState) (steps : List ServerStep) (l : Nat) :
    (state.run steps).2.count l + (state.run steps).1.waiting l ≤
      state.waiting l + (steps.map (ServerStep.added l)).sum := by
  induction steps generalizing state with
  | nil => simp [LayoutState.run]
  | cons step steps ih =>
    have hstep := count_step state step l
    have hrest := ih (state.step step).1
    simp only [LayoutState.run, List.count_append, List.map_cons, List.sum_cons]
    omega

/-! ### What a client reads -/

/-- The timestamp and the listeners of a target. -/
def LayoutState.stamp (state : LayoutState) : Target → TimestampedState
  | none => state.toTimestampedState
  | some id => (state.lok id).toTimestampedState

/-- A train can be read when it has an entry. -/
def LayoutState.Has (state : LayoutState) : Target → Prop
  | none => True
  | some id => id ∈ state.loks

/-- The values of a train; a function that is not there is off. -/
def LokState.shown (st : LokState) : (Int × Int) × (Int → Int) :=
  (st.speedValue, fun n => (st.fnValue n).getD 0)

/-- The values that belong to the target are the same in both states. -/
def SameValues (state state' : LayoutState) : Target → Prop
  | none => state'.stop = state.stop ∧ ∀ k, (state'.lok k).shown = (state.lok k).shown
  | some id => (state'.lok id).shown = (state.lok id).shown

theorem SameValues.refl (state : LayoutState) (target : Target) :
    SameValues state state target := by
  cases target with
  | none => exact ⟨rfl, fun _ => rfl⟩
  | some id => exact rfl

/-- The target is touched, and those who wait for it are among the listeners that are called. -/
def Touched (ts : Nat) (state : LayoutState) (result : LayoutState × List Nat)
    (target : Target) : Prop :=
  result.1.stamp target = ((state.stamp target).touch ts).1 ∧
    ∀ l ∈ ((state.stamp target).touch ts).2, l ∈ result.2

/-- The target keeps its values, its timestamp and its listeners. -/
def Untouched (state : LayoutState) (result : LayoutState × List Nat) (target : Target) : Prop :=
  SameValues state result.1 target ∧ result.1.stamp target = state.stamp target

section Steps

variable (state : LayoutState) (ts : Nat)

theorem lok_withLok (key k : Int) (st : LokState) :
    (state.withLok key st).lok k = if k = key then st else state.lok k := lok_insert rfl k

theorem has_withLok {key : Int} {st : LokState} {target : Target} (h : state.Has target) :
    (state.withLok key st).Has target := by
  cases target with
  | none => trivial
  | some id => exact Std.TreeMap.mem_insert.mpr (.inr h)

/-- An entry with the values of the old one. -/
theorem untouched_withLok {key : Int} {st : LokState} (hshown : st.shown = (state.lok key).shown)
    (hstamp : st.toTimestampedState = (state.lok key).toTimestampedState) (target : Target) :
    Untouched state (state.withLok key st, []) target := by
  have hlok : ∀ k, ((state.withLok key st).lok k).shown = (state.lok k).shown := by
    intro k
    rw [lok_withLok]
    by_cases hk : k = key
    · rw [if_pos hk, hk, hshown]
    · rw [if_neg hk]
  cases target with
  | none => exact ⟨⟨rfl, hlok⟩, rfl⟩
  | some id =>
    refine ⟨hlok id, ?_⟩
    show ((state.withLok key st).lok id).toTimestampedState = (state.lok id).toTimestampedState
    rw [lok_withLok]
    by_cases hk : id = key
    · rw [if_pos hk, hk, hstamp]
    · rw [if_neg hk]

/-- A new entry touches its train and the layout, and no other train. -/
theorem touchLok_cases {key : Int} {st : LokState} (calls : List Nat)
    (hstamp : st.toTimestampedState = (state.lok key).toTimestampedState) (target : Target) :
    Untouched state ((state.touchLok ts key st).1, calls ++ (state.touchLok ts key st).2) target ∨
      Touched ts state ((state.touchLok ts key st).1, calls ++ (state.touchLok ts key st).2)
        target := by
  cases target with
  | none =>
    exact .inr ⟨rfl, fun l hl => List.mem_append_right _ (List.mem_append_right _ hl)⟩
  | some id =>
    have hlok : (state.touchLok ts key st).1.lok id =
        if id = key then st.touched ts else state.lok id := lok_insert rfl id
    by_cases hk : id = key
    · rw [if_pos hk] at hlok
      subst hk
      refine .inr ⟨?_, fun l hl => ?_⟩
      · show ((state.touchLok ts _ st).1.lok id).toTimestampedState = _
        rw [hlok]
        show (st.touch ts).1 = _
        rw [hstamp]
        rfl
      · refine List.mem_append_right _ (List.mem_append_left _ ?_)
        rw [hstamp]
        exact hl
    · rw [if_neg hk] at hlok
      refine .inl ⟨?_, ?_⟩
      · show ((state.touchLok ts _ st).1.lok id).shown = _
        rw [hlok]
      · show ((state.touchLok ts _ st).1.lok id).toTimestampedState = _
        rw [hlok]
        rfl

/-- All the trains and the layout are touched. -/
theorem touched_touchAllLoks {target : Target} (h : state.Has target) :
    Touched ts state (state.touchAllLoks ts) target := by
  cases target with
  | none => exact ⟨rfl, fun l hl => List.mem_append_right _ hl⟩
  | some id =>
    obtain ⟨st, hst⟩ := Option.isSome_iff_exists.mp (Std.TreeMap.isSome_getElem?_iff_mem.mpr h)
    have hold : state.lok id = st := by rw [LayoutState.lok, hst]; rfl
    have hnew : (state.touchAllLoks ts).1.lok id = st.touched ts := by
      rw [LayoutState.lok, LayoutState.touchAllLoks, Std.TreeMap.getElem?_map, hst]
      rfl
    refine ⟨?_, fun l hl => List.mem_append_left _ (List.mem_flatMap.mpr ⟨(id, st), ?_, ?_⟩)⟩
    · show ((state.touchAllLoks ts).1.lok id).toTimestampedState = _
      rw [hnew, LayoutState.stamp, hold]
      rfl
    · exact Std.TreeMap.mem_toList_iff_getElem?_eq_some.mpr hst
    · rw [LayoutState.stamp, hold] at hl
      exact hl

theorem has_touchAllLoks {target : Target} (h : state.Has target) :
    (state.touchAllLoks ts).1.Has target := by
  cases target with
  | none => trivial
  | some id => exact Std.TreeMap.mem_map.mpr h

theorem setSpeed_target (key : Int) (value : Int32) (target : Target) :
    Untouched state (state.setSpeed ts key value) target ∨
      Touched ts state (state.setSpeed ts key value) target := by
  rcases setSpeed_cases state ts key value with h | ⟨sst, -, h⟩
  · rw [h]
    exact .inl (untouched_withLok state rfl rfl target)
  · have hstamp : ((state.lok key).withSpeed (sst.touched ts)).toTimestampedState =
        (state.lok key).toTimestampedState := rfl
    rw [h]
    exact touchLok_cases state ts (sst.touch ts).2 hstamp target

theorem setFn_target (key fnid value : Int) (target : Target) :
    Untouched state (state.setFn ts key fnid value) target ∨
      Touched ts state (state.setFn ts key fnid value) target := by
  rcases setFn_cases state ts key fnid value with h | ⟨fst, -, h⟩
  · have hstamp : ((state.lok key).withFn fnid
        ((state.lok key).fn[fnid]?.getD {})).toTimestampedState =
        (state.lok key).toTimestampedState := rfl
    have hfn : ∀ n, ((((state.lok key).withFn fnid
        ((state.lok key).fn[fnid]?.getD {})).fnValue n).getD 0) =
        (((state.lok key).fnValue n).getD 0) := by
      intro n
      rw [LokState.fnValue, LokState.withFn, getElem?_insert]
      by_cases hn : n = fnid
      · rw [if_pos hn, hn, LokState.fnValue]
        cases (state.lok key).fn[fnid]? with
        | none => rfl
        | some fst => rfl
      · rw [if_neg hn]
        rfl
    have hshown : ((state.lok key).withFn fnid ((state.lok key).fn[fnid]?.getD {})).shown =
        (state.lok key).shown := congrArg (Prod.mk _) (funext hfn)
    rw [h]
    exact .inl (untouched_withLok state hshown hstamp target)
  · have hstamp : ((state.lok key).withFn fnid (fst.touched ts)).toTimestampedState =
        (state.lok key).toTimestampedState := rfl
    rw [h]
    exact touchLok_cases state ts (fst.touch ts).2 hstamp target

theorem has_setSpeed (key : Int) (value : Int32) {target : Target} (h : state.Has target) :
    (state.setSpeed ts key value).1.Has target := by
  rcases setSpeed_cases state ts key value with heq | ⟨sst, -, heq⟩
  · rw [heq]
    exact has_withLok state h
  · rw [heq]
    exact has_withLok (state.touched ts) h

theorem has_setFn (key fnid value : Int) {target : Target} (h : state.Has target) :
    (state.setFn ts key fnid value).1.Has target := by
  rcases setFn_cases state ts key fnid value with heq | ⟨fst, -, heq⟩
  · rw [heq]
    exact has_withLok state h
  · rw [heq]
    exact has_withLok (state.touched ts) h

/-- A new value of the emergency stop touches everything. -/
theorem touched_stop (value : Bool) {target : Target} (h : state.Has target) :
    Touched ts state ({ state with stop := value }.touchAllLoks ts) target ∧
      ({ state with stop := value }.touchAllLoks ts).1.Has target := by
  have hhas : ({ state with stop := value } : LayoutState).Has target := by
    cases target with
    | none => trivial
    | some id => exact h
  have htouched := touched_touchAllLoks { state with stop := value } ts hhas
  refine ⟨?_, has_touchAllLoks _ ts hhas⟩
  cases target with
  | none => exact htouched
  | some id => exact htouched

/-- A packet leaves a target alone, or touches it. -/
theorem packetArrived_target (nsec : Nat) (packet : List UInt8) {target : Target}
    (h : state.Has target) :
    (Untouched state (state.packetArrived nsec packet) target ∨
        Touched (nsec / 1000) state (state.packetArrived nsec packet) target) ∧
      (state.packetArrived nsec packet).1.Has target := by
  have hsame : Untouched state (state, []) target := ⟨SameValues.refl state target, rfl⟩
  rw [packetArrived_eq]
  cases decodePacket packet with
  | none => exact ⟨.inl hsame, h⟩
  | some content =>
    cases content with
    | stop value =>
      simp only [Option.elim_some, LayoutState.deliver, LayoutState.setStop]
      split
      · have hstop := touched_stop state (nsec / 1000) (value != 0) h
        exact ⟨.inr hstop.1, hstop.2⟩
      · exact ⟨.inl hsame, h⟩
    | train address fn value =>
      simp only [Option.elim_some, LayoutState.deliver]
      split
      · exact ⟨setSpeed_target state _ _ _ target, has_setSpeed state _ _ _ h⟩
      · exact ⟨setFn_target state _ _ _ _ target, has_setFn state _ _ _ _ h⟩

/-- A listener is added to its target. -/
theorem waitForChange_self {target : Target} (h : state.Has target) (timestamp done : Nat) :
    SameValues state (state.waitForChange target timestamp done).1 target ∧
      (state.waitForChange target timestamp done).1.stamp target =
        ((state.stamp target).addListener timestamp done).1 ∧
      (state.waitForChange target timestamp done).2 =
        ((state.stamp target).addListener timestamp done).2 := by
  cases target with
  | none => exact ⟨SameValues.refl state none, rfl, rfl⟩
  | some id =>
    obtain ⟨st, hst⟩ := Option.isSome_iff_exists.mp (Std.TreeMap.isSome_getElem?_iff_mem.mpr h)
    have hold : state.lok id = st := by rw [LayoutState.lok, hst]; rfl
    have hwait : state.waitForChange (some id) timestamp done =
        (state.withLok id { st with toTimestampedState := (st.addListener timestamp done).1 },
          (st.addListener timestamp done).2) := by
      simp only [LayoutState.waitForChange, hst]
    rw [hwait, LayoutState.stamp, LayoutState.stamp, hold]
    refine ⟨?_, ?_, rfl⟩
    · show ((state.withLok id _).lok id).shown = (state.lok id).shown
      rw [lok_withLok, if_pos rfl, hold]
      rfl
    · rw [lok_withLok, if_pos rfl]

/-- The request of a train that has an entry. -/
theorem waitForChange_lok {id : Int} {st : LokState} (h : state.loks[id]? = some st)
    (timestamp done : Nat) : state.waitForChange (some id) timestamp done =
      (state.withLok id { st with toTimestampedState := (st.addListener timestamp done).1 },
        (st.addListener timestamp done).2) := by
  simp only [LayoutState.waitForChange, h]

/-- The other targets do not notice. -/
theorem waitForChange_other {target target' : Target} (hne : target' ≠ target)
    (timestamp done : Nat) :
    SameValues state (state.waitForChange target' timestamp done).1 target ∧
      (state.waitForChange target' timestamp done).1.stamp target = state.stamp target := by
  cases target' with
  | none =>
    cases target with
    | none => exact absurd rfl hne
    | some id => exact ⟨rfl, rfl⟩
  | some id' =>
    cases hid : state.loks[id']? with
    | none =>
      have hsame : state.waitForChange (some id') timestamp done = (state, []) := by
        simp only [LayoutState.waitForChange, hid]
      rw [hsame]
      exact ⟨SameValues.refl state target, rfl⟩
    | some st =>
      have hold : state.lok id' = st := by rw [LayoutState.lok, hid]; rfl
      rw [waitForChange_lok state hid]
      cases target with
      | none =>
        refine ⟨⟨rfl, fun k => ?_⟩, rfl⟩
        rw [lok_withLok]
        by_cases hk : k = id'
        · rw [if_pos hk, hk, hold]
          rfl
        · rw [if_neg hk]
      | some id =>
        have hid' : id ≠ id' := fun heq => hne (by rw [heq])
        have hlok : (state.withLok id'
            { st with toTimestampedState := (st.addListener timestamp done).1 }).lok id =
            state.lok id := by rw [lok_withLok, if_neg hid']
        exact ⟨congrArg LokState.shown hlok, congrArg LokState.toTimestampedState hlok⟩

theorem has_waitForChange {target target' : Target} (h : state.Has target)
    (timestamp done : Nat) : (state.waitForChange target' timestamp done).1.Has target := by
  cases target' with
  | none =>
    cases target with
    | none => trivial
    | some id => exact h
  | some id' =>
    cases hid : state.loks[id']? with
    | none =>
      simp only [LayoutState.waitForChange, hid]
      exact h
    | some st =>
      rw [waitForChange_lok state hid]
      exact has_withLok state h

end Steps

/-! ### Runs -/

/-- What the clock shows at a step that can change values, in microseconds. -/
def ServerStep.tsUsec : ServerStep → Option Nat
  | .packet nsec _ => some (nsec / 1000)
  | .emergencyStop nsec _ => some (nsec / 1000)
  | .waitForChange .. => none

/-- Each step leaves a target alone, touches it, or adds a listener to it. -/
theorem step_target (state : LayoutState) (step : ServerStep) {target : Target}
    (h : state.Has target) :
    (Untouched state (state.step step) target ∨
        (∃ ts, step.tsUsec = some ts ∧ Touched ts state (state.step step) target) ∨
        ∃ timestamp done, step = .waitForChange target timestamp done ∧
          SameValues state (state.step step).1 target ∧
          (state.step step).1.stamp target =
            ((state.stamp target).addListener timestamp done).1) ∧
      (state.step step).1.Has target := by
  cases step with
  | packet nsec packet =>
    obtain ⟨hcases, hhas⟩ := packetArrived_target state nsec packet h
    rcases hcases with hcase | hcase
    · exact ⟨.inl hcase, hhas⟩
    · exact ⟨.inr (.inl ⟨_, rfl, hcase⟩), hhas⟩
  | emergencyStop nsec stop =>
    obtain ⟨htouched, hhas⟩ := touched_stop state (nsec / 1000) stop h
    exact ⟨.inr (.inl ⟨_, rfl, htouched⟩), hhas⟩
  | waitForChange target' timestamp done =>
    refine ⟨?_, has_waitForChange state h timestamp done⟩
    by_cases hne : target' = target
    · subst hne
      obtain ⟨hsame, hstamp, -⟩ := waitForChange_self state h timestamp done
      exact .inr (.inr ⟨timestamp, done, rfl, hsame, hstamp⟩)
    · exact .inl (waitForChange_other state hne timestamp done)

/-- Some step of the run changes a value that belongs to the target. -/
def Changes (target : Target) : LayoutState → List ServerStep → Prop
  | _, [] => False
  | state, step :: steps =>
    ¬ SameValues state (state.step step).1 target ∨ Changes target (state.step step).1 steps

/-- Every step of the run that changes a value that belongs to the target comes at a time after
`t`. -/
def ChangesAfter (target : Target) (t : Nat) : LayoutState → List ServerStep → Prop
  | _, [] => True
  | state, step :: steps =>
    (¬ SameValues state (state.step step).1 target → ∀ ts ∈ step.tsUsec, t < ts) ∧
      ChangesAfter target t (state.step step).1 steps

theorem touch_tsUsec (st : TimestampedState) (ts : Nat) :
    (st.touch ts).1.tsUsec = max st.tsUsec ts := by
  unfold TimestampedState.touch
  split
  · simp only
    omega
  · simp only
    omega

theorem run_append (state : LayoutState) (before after : List ServerStep) :
    state.run (before ++ after) =
      (((state.run before).1.run after).1,
        (state.run before).2 ++ ((state.run before).1.run after).2) := by
  induction before generalizing state with
  | nil => rfl
  | cons step before ih => simp [LayoutState.run, ih]

theorem changes_append {target : Target} {state : LayoutState} {before after : List ServerStep} :
    Changes target state (before ++ after) ↔
      Changes target state before ∨ Changes target (state.run before).1 after := by
  induction before generalizing state with
  | nil => simp [Changes, LayoutState.run]
  | cons step before ih =>
    show _ ∨ Changes target _ (before ++ after) ↔ (_ ∨ Changes target _ before) ∨ _
    rw [ih, or_assoc]
    rfl

theorem changesAfter_append {target : Target} {t : Nat} {state : LayoutState}
    {before after : List ServerStep} :
    ChangesAfter target t state (before ++ after) ↔
      ChangesAfter target t state before ∧ ChangesAfter target t (state.run before).1 after := by
  induction before generalizing state with
  | nil => simp [ChangesAfter, LayoutState.run]
  | cons step before ih =>
    show _ ∧ ChangesAfter target t _ (before ++ after) ↔
      (_ ∧ ChangesAfter target t _ before) ∧ _
    rw [ih, and_assoc]
    rfl

section Runs

variable {state : LayoutState} {target : Target} {t : Nat}

/-- The timestamps do not go back. -/
theorem stamp_step_le (h : state.Has target) (step : ServerStep) :
    (state.stamp target).tsUsec ≤ ((state.step step).1.stamp target).tsUsec := by
  rcases (step_target state step h).1 with ⟨-, hstamp⟩ | ⟨ts, -, hstamp, -⟩ |
    ⟨timestamp, done, -, -, hstamp⟩
  · rw [hstamp]
  · rw [hstamp, touch_tsUsec]
    exact Nat.le_max_left _ _
  · rw [hstamp]
    unfold TimestampedState.addListener
    split
    · exact le_rfl
    · exact le_rfl

theorem stamp_run_le (h : state.Has target) (steps : List ServerStep) :
    (state.stamp target).tsUsec ≤ ((state.run steps).1.stamp target).tsUsec := by
  induction steps generalizing state with
  | nil => exact le_rfl
  | cons step steps ih =>
    exact (stamp_step_le h step).trans (ih (step_target state step h).2)

theorem has_run (h : state.Has target) (steps : List ServerStep) :
    (state.run steps).1.Has target := by
  induction steps generalizing state with
  | nil => exact h
  | cons step steps ih => exact ih (step_target state step h).2

/-- A change after `t` leaves a timestamp after `t`. -/
theorem stamp_of_change (h : state.Has target) {step : ServerStep}
    (hchange : ¬ SameValues state (state.step step).1 target)
    (hafter : ∀ ts ∈ step.tsUsec, t < ts) :
    t < ((state.step step).1.stamp target).tsUsec := by
  rcases (step_target state step h).1 with ⟨hsame, -⟩ | ⟨ts, hts, hstamp, -⟩ | ⟨_, _, -, hsame, -⟩
  · exact absurd hsame hchange
  · rw [hstamp, touch_tsUsec]
    exact (hafter ts hts).trans_le (Nat.le_max_right _ _)
  · exact absurd hsame hchange

/-- Once values have changed after `t`, the timestamp is after `t`. -/
theorem stamp_of_changes {steps : List ServerStep} (h : state.Has target)
    (hafter : ChangesAfter target t state steps) (hchanges : Changes target state steps) :
    t < ((state.run steps).1.stamp target).tsUsec := by
  induction steps generalizing state with
  | nil => exact absurd hchanges id
  | cons step steps ih =>
    have hnext := (step_target state step h).2
    by_cases hsame : SameValues state (state.step step).1 target
    · exact ih hnext hafter.2 (hchanges.resolve_left fun hn => hn hsame)
    · exact (stamp_of_change h hsame (hafter.1 hsame)).trans_le (stamp_run_le hnext steps)

/-- A listener that waits since `t` is called at the first change after `t`. -/
theorem called_of_changes {steps : List ServerStep} {l : Nat} (h : state.Has target)
    (hwaits : l ∈ (state.stamp target).listeners) (ht : (state.stamp target).tsUsec ≤ t)
    (hafter : ChangesAfter target t state steps) (hchanges : Changes target state steps) :
    l ∈ (state.run steps).2 := by
  induction steps generalizing state with
  | nil => exact absurd hchanges id
  | cons step steps ih =>
    obtain ⟨hcases, hnext⟩ := step_target state step h
    show l ∈ (state.step step).2 ++ ((state.step step).1.run steps).2
    rcases hcases with ⟨hsame, hstamp⟩ | ⟨ts, hts, hstamp, hcalls⟩ |
      ⟨timestamp, done, -, hsame, hstamp⟩
    · refine List.mem_append_right _ (ih hnext ?_ ?_ hafter.2
        (hchanges.resolve_left fun hn => hn hsame))
      · rw [hstamp]
        exact hwaits
      · rw [hstamp]
        exact ht
    · by_cases hnew : (state.stamp target).tsUsec < ts
      · have htouch : ((state.stamp target).touch ts).2 = (state.stamp target).listeners := by
          rw [TimestampedState.touch, if_pos hnew]
        exact List.mem_append_left _ (hcalls l (htouch ▸ hwaits))
      · have htouch : ((state.stamp target).touch ts).1 = state.stamp target := by
          rw [TimestampedState.touch, if_neg hnew]
        have hsame : SameValues state (state.step step).1 target := by
          by_contra hchange
          have hlt := hafter.1 hchange ts hts
          omega
        rw [htouch] at hstamp
        refine List.mem_append_right _ (ih hnext ?_ ?_ hafter.2
          (hchanges.resolve_left fun hn => hn hsame))
        · rw [hstamp]
          exact hwaits
        · rw [hstamp]
          exact ht
    · refine List.mem_append_right _ (ih hnext ?_ ?_ hafter.2
        (hchanges.resolve_left fun hn => hn hsame))
      · rw [hstamp]
        unfold TimestampedState.addListener
        split
        · exact List.mem_append_left _ hwaits
        · exact hwaits
      · rw [hstamp]
        unfold TimestampedState.addListener
        split
        · exact ht
        · exact ht

/-- A client that has read the target at the timestamp `t` waits for a change, after the steps
`middle`. -/
theorem called_of_waitForChange {middle rest : List ServerStep} {done : Nat} (h : state.Has target)
    (ht : (state.stamp target).tsUsec = t)
    (hafter : ChangesAfter target t state (middle ++ .waitForChange target t done :: rest))
    (hchanges : Changes target state (middle ++ .waitForChange target t done :: rest)) :
    done ∈ ((state.run middle).1.run (.waitForChange target t done :: rest)).2 := by
  have hmiddle : (state.run middle).1.Has target := has_run h middle
  have hle : t ≤ ((state.run middle).1.stamp target).tsUsec := ht ▸ stamp_run_le h middle
  obtain ⟨hsame, hstamp, hcalls⟩ := waitForChange_self (state.run middle).1 hmiddle t done
  have hnext : ((state.run middle).1.waitForChange target t done).1.Has target :=
    has_waitForChange _ hmiddle t done
  rw [changes_append] at hchanges
  rw [changesAfter_append] at hafter
  by_cases hnow : t < ((state.run middle).1.stamp target).tsUsec
  · -- the values are already newer than what the client has read
    refine List.mem_append_left _ ?_
    show done ∈ ((state.run middle).1.waitForChange target t done).2
    rw [hcalls, TimestampedState.addListener, if_neg (by omega)]
    exact List.mem_singleton_self done
  · have hrest : Changes target ((state.run middle).1.waitForChange target t done).1 rest := by
      rcases hchanges with hchanges | hchanges
      · exact absurd (stamp_of_changes h hafter.1 hchanges) hnow
      · exact hchanges.resolve_left fun hn => hn hsame
    refine List.mem_append_right _ (called_of_changes hnext ?_ ?_ hafter.2.2 hrest)
    · show done ∈ (((state.run middle).1.waitForChange target t done).1.stamp target).listeners
      rw [hstamp, TimestampedState.addListener, if_pos (by omega)]
      exact List.mem_append_right _ (List.mem_singleton_self done)
    · show (((state.run middle).1.waitForChange target t done).1.stamp target).tsUsec ≤ t
      rw [hstamp, TimestampedState.addListener, if_pos (by omega)]
      exact Nat.le_of_not_lt hnow

end Runs

/-- A client of a run: it reads the target after the steps `before`, and adds the listener `done`
with the timestamp that it has read after the steps `middle`. -/
structure WaitingClient (start : LayoutState) (steps : List ServerStep) where
  before : List ServerStep
  middle : List ServerStep
  rest : List ServerStep
  target : Target
  done : Nat
  readable : (start.run before).1.Has target
  steps_eq : steps = before ++ (middle ++
    .waitForChange target ((start.run before).1.stamp target).tsUsec done :: rest)

namespace WaitingClient

variable {start : LayoutState} {steps : List ServerStep} (c : WaitingClient start steps)

/-- The state that the client has read. -/
def state : LayoutState := (start.run c.before).1

/-- The request of the client, with the timestamp that it has read. -/
def request : ServerStep := .waitForChange c.target (c.state.stamp c.target).tsUsec c.done

/-- Wherever the run stops: if a value of the target has changed since the client has read it, the
listener has been called. -/
def Informed : Prop :=
  ∀ rest', rest' <+: c.rest → Changes c.target c.state (c.middle ++ c.request :: rest') →
    c.done ∈ ((c.state.run c.middle).1.run (c.request :: rest')).2

/-- After the client has read the target, its values change only at later times than the timestamp
that the client has read. -/
def ClockAdvances : Prop :=
  ChangesAfter c.target (c.state.stamp c.target).tsUsec c.state (c.middle ++ c.request :: c.rest)

end WaitingClient

theorem waiting_withLok {state : LayoutState} {st : LokState} {l : Nat}
    (h : state.waiting l = 0) (hst : st.waiting l = 0) (key : Int) :
    (state.withLok key st).waiting l = 0 := by
  have hinsert := waiting_insert state key st l
  omega

theorem waiting_zeroLayoutState (lokdb : List LokDbEntry) (l : Nat) :
    (LayoutState.zeroLayoutState {} lokdb).waiting l = 0 := by
  have hfns : ∀ (ids : List Int) (fn : Std.TreeMap Int FnState),
      MapSum.sum fn (fun fst => fst.listeners.count l) = 0 →
      MapSum.sum (ids.foldl (fun fn id => fn.insert id {}) fn)
        (fun fst => fst.listeners.count l) = 0 := by
    intro ids
    induction ids with
    | nil => exact fun _ h => h
    | cons id ids ih =>
      intro fn h
      refine ih _ ?_
      have hsum := MapSum.sum_insert fn id ({} : FnState) fun fst => fst.listeners.count l
      have hnew : ({} : FnState).listeners.count l = 0 := List.count_nil
      show MapSum.sum (fn.insert id {}) (fun fst => fst.listeners.count l) = 0
      omega
  refine List.foldlRecOn lokdb _ (motive := fun state : LayoutState => state.waiting l = 0)
    ?_ fun state h lok _ => ?_
  · rfl
  · have hold := waiting_insert state lok.id {} l
    have hempty : ({} : LokState).waiting l = 0 := rfl
    have hentry : (state.lok lok.id).waiting l = 0 := by omega
    refine waiting_withLok h ?_ lok.id
    simp only [LokState.waiting, Nat.add_eq_zero_iff] at hentry ⊢
    exact ⟨hentry.1, hfns _ _ hentry.2⟩

/-- In every run no listener is called more often than it is added, and a client whose clock
advances misses no change. -/
theorem waiting_clients_informed (lokdb : List LokDbEntry) (steps : List ServerStep) :
    (∀ l, ((LayoutState.zeroLayoutState {} lokdb).run steps).2.count l ≤
        (steps.map (ServerStep.added l)).sum) ∧
      ∀ c : WaitingClient (LayoutState.zeroLayoutState {} lokdb) steps,
        c.ClockAdvances → c.Informed := by
  refine ⟨fun l => ?_, fun c hclock rest' hrest' hchanges => ?_⟩
  · have hcount := count_run (LayoutState.zeroLayoutState {} lokdb) steps l
    rw [waiting_zeroLayoutState] at hcount
    omega
  · obtain ⟨more, hmore⟩ := hrest'
    have hafter : ChangesAfter c.target (c.state.stamp c.target).tsUsec c.state
        (c.middle ++ c.request :: rest') := by
      have hall : ChangesAfter c.target (c.state.stamp c.target).tsUsec c.state
          ((c.middle ++ c.request :: rest') ++ more) := by
        rw [List.append_assoc, List.cons_append, hmore]
        exact hclock
      exact (changesAfter_append.mp hall).1
    exact called_of_waitForChange c.readable rfl hafter hchanges

/-- Train 1 gets a speed at the first time, a client waits for the next change, and then there is
another speed at the second time. -/
def twoSpeeds (nsec nsec' : Nat) : List ServerStep :=
  [.packet nsec [0x1a, 0x40, 0x48, 0x05, 0, 3, 1, 0, 0x20], .waitForChange (some 1) 137 7,
    .packet nsec' [0x1a, 0x40, 0x48, 0x05, 0, 3, 1, 0, 0x30]]

/-- The client of `twoSpeeds`, when the first time is in the microsecond 137. -/
def twoSpeedsClient (nsec' : Nat) :
    WaitingClient (LayoutState.zeroLayoutState {} [⟨1, []⟩]) (twoSpeeds 137000 nsec') where
  before := [.packet 137000 [0x1a, 0x40, 0x48, 0x05, 0, 3, 1, 0, 0x20]]
  middle := []
  rest := [.packet nsec' [0x1a, 0x40, 0x48, 0x05, 0, 3, 1, 0, 0x30]]
  target := some 1
  done := 7
  readable := by
    show (1 : Int) ∈ LayoutState.loks _
    decide
  steps_eq := by
    have hstamp : (((LayoutState.zeroLayoutState {} [⟨1, []⟩]).run
        [.packet 137000 [0x1a, 0x40, 0x48, 0x05, 0, 3, 1, 0, 0x20]]).1.stamp
        (some 1)).tsUsec = 137 := by decide
    rw [hstamp]
    rfl

theorem twoSpeedsClient_stamp (nsec' : Nat) :
    ((twoSpeedsClient nsec').state.stamp (some 1)).tsUsec = 137 := by
  show (((LayoutState.zeroLayoutState {} [⟨1, []⟩]).run
    [.packet 137000 [0x1a, 0x40, 0x48, 0x05, 0, 3, 1, 0, 0x20]]).1.stamp (some 1)).tsUsec = 137
  decide

theorem twoSpeeds_informed :
    ((LayoutState.zeroLayoutState {} [⟨1, []⟩]).run (twoSpeeds 137000 199000)).2.count 7 ≤ 1 ∧
      (twoSpeedsClient 199000).Informed := by
  obtain ⟨hcount, hclients⟩ := waiting_clients_informed [⟨1, []⟩] (twoSpeeds 137000 199000)
  refine ⟨hcount 7, hclients _ ⟨fun _ ts hts => ?_, fun _ ts hts => ?_, trivial⟩⟩
  · cases hts
  · have hts : 199 = ts := Option.some.inj hts
    have hstamp : ((twoSpeedsClient 199000).state.stamp (twoSpeedsClient 199000).target).tsUsec =
        137 := twoSpeedsClient_stamp 199000
    omega

/-- Two speeds in the same microsecond: the second one is not noticed by the client that has read
the first. -/
theorem same_microsecond_missed :
    ([137000, 137500] : List Nat).Pairwise (· ≤ ·) ∧
      ¬ ∀ c : WaitingClient (LayoutState.zeroLayoutState {} [⟨1, []⟩]) (twoSpeeds 137000 137500),
        c.Informed := by
  refine ⟨by decide, fun h => ?_⟩
  have hcalled := h (twoSpeedsClient 137500) _ (List.prefix_refl _) (.inr (.inl fun hsame => ?_))
  · revert hcalled
    show ¬ 7 ∈ _
    decide
  · have hspeed := congrArg Prod.fst hsame
    revert hspeed
    show ¬ LokState.speedValue _ = LokState.speedValue _
    decide

end OpenmrnCue.Server
