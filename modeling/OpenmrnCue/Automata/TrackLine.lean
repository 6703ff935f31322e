import OpenmrnCue.Automata.Line
import OpenmrnCue.Automata.PluginWrites

/-! A line of straight tracks and signal pieces in any order, all from side a to side b, bound by
`BindSequence`.  A piece hands on what it is told about the signals ahead: a straight track tells
the piece before it the same, a signal counts itself; in the other direction both tell the same. -/

namespace OpenmrnCue.Automata

/-! ## Lines -/

/-- The pieces, and the lookups of the interfaces that the outer sides are bound to. -/
structure TrackLine where
  pieces : List LinePiece
  before : Lookup
  after : Lookup
  hasResetRoutes : Bool

namespace TrackLine

variable (l : TrackLine)

/-- The connections that `BindSequence` makes. -/
def connections : Option (Connections LineInterface) :=
  Connections.unbound.call (.bindSequence (some (-1, .b)) (lineInterfaces 0 l.pieces.length)
    (some ((l.pieces.length : ℤ), .a)))

/-- The lookups of what side a of a piece is bound to. -/
def lookupBehindA (i : Nat) : Lookup :=
  (l.pieces.take i).foldl (fun behind p => p.lookup .b behind) l.before

/-- The lookups of what side b of a piece is bound to. -/
def lookupBehindB (i : Nat) : Lookup :=
  (l.pieces.drop (i + 1)).foldr (fun p behind => p.lookup .a behind) l.after

/-- What a piece is bound to. -/
def track (i : Nat) : Track Side StraightRoute where
  binding
    | .a => ⟨.other 0, (l.lookupBehindA i).next.map .foreign, (l.lookupBehindA i).far.map .foreign⟩
    | .b => ⟨.other 1, (l.lookupBehindB i).next.map .foreign, (l.lookupBehindB i).far.map .foreign⟩
  hasResetRoutes := l.hasResetRoutes

/-- The body of the automaton of a piece, over the variables of the line. -/
def body (i : Nat) : Option (List (Op LineBit Empty)) := do
  let piece ← l.pieces[i]?
  let connections ← l.connections
  let sideA ← connections.binding (i, .a)
  let sideB ← connections.binding (i, .b)
  let ops ← (piece.plugins (l.track i)).runAll
  some (ops.map (·.map (resolve i sideA sideB)))

/-- What a body is rendered from. -/
theorem body_eq_some {l : TrackLine} {i : Nat} {ops : List (Op LineBit Empty)}
    (h : l.body i = some ops) : ∃ piece rendered, l.pieces[i]? = some piece ∧
      (piece.plugins (l.track i)).runAll = some rendered ∧
      ops = rendered.map (·.map (resolve i ((i : ℤ) - 1, .b) ((i : ℤ) + 1, .a))) := by
  obtain ⟨c, hc, hneighbours⟩ := exists_bound_lineInterfaces l.pieces.length
  obtain ⟨piece, hpiece, h⟩ := Option.bind_eq_some_iff.mp h
  have hi := (List.getElem?_eq_some_iff.mp hpiece).1
  obtain ⟨rendered, hrendered, hops⟩ := rendered_of_bound ⟨c, hc, hneighbours i hi⟩ h
  exact ⟨piece, rendered, hpiece, hrendered, hops⟩

end TrackLine

/-! ## Bits of signals -/

/-- The bits of an interface that tell about the next signals. -/
def InterfaceVariable.ofSignal : InterfaceVariable → Bool
  | .inNextSignal1 | .inNextSignal2 => true
  | _ => false

/-- A bit that tells an interface about the next signals. -/
def Bit.ofSignal {S R : Type} : Bit S R → Bool
  | .interface _ v => v.ofSignal
  | _ => false

/-- The action leaves the bits of signals alone. -/
def Action.Silent {S R : Type} : Action (Bit S R) Empty → Prop
  | .actReg0 var | .actReg1 var => var.ofSignal = false
  | _ => True

/-- The two bits of an interface, as a number. -/
def signalNumber (bits : LineBit → Bool) (x : LineInterface) : Nat :=
  2 * (bits (.interface x .inNextSignal2)).toNat + (bits (.interface x .inNextSignal1)).toNat

/-- What an interface is told about the signals behind it. -/
def LineState.nextSignal (s : LineState) (x : LineInterface) : Nat := signalNumber s.bits x

/-- The number that a signal passes on. -/
def countSignal (green : Bool) (ahead : Nat) : Nat := if green then min 3 (ahead + 1) else 0

/-- The number that a piece passes on against the direction of the line. -/
def LinePiece.passOn (p : LinePiece) (green : Bool) (ahead : Nat) : Nat :=
  match p with
  | .straight _ => ahead
  | .signal _ => countSignal green ahead

/-! ## Operations -/

namespace Layout

variable {V : Type} [DecidableEq V] (s : Layout V)

/-- `DefCopy`. -/
theorem bits_copy (src dst : V) : (s.run (G := Empty)
    [⟨[.ifReg0 src, .ifReg1 dst], [.actReg0 dst]⟩,
      ⟨[.ifReg1 src, .ifReg0 dst], [.actReg1 dst]⟩]).bits =
    Function.update s.bits dst (s.bits src) := by
  by_cases hsame : s.bits src = s.bits dst
  · rw [hsame, Function.update_eq_self]
    cases hdst : s.bits dst with
    | false => simp [run, exec, test, hsame, hdst]
    | true => simp [run, exec, test, hsame, hdst]
  · have hne : src ≠ dst := fun heq => hsame (heq ▸ rfl)
    cases hsrc : s.bits src with
    | false =>
      have hdst : s.bits dst = true := by simpa [hsrc] using hsame
      simp [run, exec, test, perform, setBit, hsrc, hdst, Function.update_of_ne hne]
    | true =>
      have hdst : s.bits dst = false := by simpa [hsrc] using hsame
      simp [run, exec, test, perform, setBit, hsrc, hdst]

/-- The increment of `SetSignalState`. -/
theorem bits_increment (green in1 in2 out1 out2 : V) (hgreen1 : green ≠ out1)
    (hgreen2 : green ≠ out2) (h11 : in1 ≠ out1) (h12 : in1 ≠ out2) (h21 : in2 ≠ out1)
    (h22 : in2 ≠ out2) (hout : out1 ≠ out2) :
    let t := s.run (G := Empty)
      [⟨[.ifReg0 green], [.actReg0 out1, .actReg0 out2]⟩,
        ⟨[.ifReg1 green, .ifReg0 in2, .ifReg0 in1], [.actReg0 out2, .actReg1 out1]⟩,
        ⟨[.ifReg1 green, .ifReg0 in2, .ifReg1 in1], [.actReg1 out2, .actReg0 out1]⟩,
        ⟨[.ifReg1 green, .ifReg1 in2], [.actReg1 out2, .actReg1 out1]⟩]
    2 * (t.bits out2).toNat + (t.bits out1).toNat =
        countSignal (s.bits green) (2 * (s.bits in2).toNat + (s.bits in1).toNat) ∧
      ∀ var, var ≠ out1 → var ≠ out2 → t.bits var = s.bits var := by
  cases hgreen : s.bits green <;> cases hin1 : s.bits in1 <;> cases hin2 : s.bits in2 <;>
    simp [run, exec, test, perform, setBit, countSignal, hgreen, hin1, hin2, Function.update_apply,
      hgreen1, hgreen2, h11, h12, h21, h22, hout, hout.symm] <;>
    intro var hvar1 hvar2 <;> simp [hvar1, hvar2]

end Layout

/-! ## Plugins -/

section Plugins

variable {t : Track Side StraightRoute} {ops : List (PieceOp Side StraightRoute)}

/-- What a piece renders for the signals. -/
def LinePiece.signalOps (p : LinePiece) (t : Track Side StraightRoute) :
    List (PieceOp Side StraightRoute) :=
  match p with
  | .straight _ => (⟨t, none⟩ : StraightTrack).copySignalState
  | .signal v => (⟨⟨t, v.externalOccupancy.map .foreign⟩, .foreign v.requestGreen,
      v.signal.map .foreign, .foreign v.routeNoStop⟩ : SignalPiece).setSignalState

theorem WriteOnly.silent (h : WriteOnly (fun var => var.ofSignal = false) ops) :
    EachAction Action.Silent ops := by
  refine h.imp fun a ha => ?_
  cases a with
  | actReg0 var => exact ha
  | actReg1 var => exact ha
  | _ => exact ha.elim

/-- The bits of interfaces that routes are set through tell nothing about signals. -/
theorem InterfaceVariable.ofSignal_eq_false {v : InterfaceVariable} (h1 : v ≠ .inNextSignal1)
    (h2 : v ≠ .inNextSignal2) : v.ofSignal = false := by
  cases v with
  | inNextSignal1 => exact absurd rfl h1
  | inNextSignal2 => exact absurd rfl h2
  | _ => rfl

theorem silent_simulateAllOccupancy {p : StraightTrack} (h : p.simulateAllOccupancy = some ops) :
    EachAction Action.Silent ops := by
  refine WriteOnly.silent ?_
  refine p.writeOnly_simulateAllOccupancy ?_ ?_ ?_ (fun x => ?_) (fun r => ?_) h
  all_goals rfl

theorem silent_simulateRoute (condition : Conditions Side StraightRoute) (before after : Side)
    (r : StraightRoute) (conflictingRoutes : List (Bit Side StraightRoute)) :
    EachAction Action.Silent (simulateRoute t condition before after (.routePending r)
      [.routeSet r] conflictingRoutes) := by
  refine WriteOnly.silent ?_
  refine writeOnly_simulateRoute t condition before after conflictingRoutes ?_ rfl rfl ?_
  · exact fun _ _ h1 h2 => InterfaceVariable.ofSignal_eq_false h1 h2
  · simp [Bit.ofSignal]

theorem silent_simulateAllRoutes (p : StraightTrack) :
    EachAction Action.Silent p.simulateAllRoutes := by
  refine EachAction.append (.cons ?_ ?_) ?_
  · simp [Action.Silent, Bit.ofSignal]
  · exact silent_simulateRoute _ _ _ _ _
  · exact silent_simulateRoute _ _ _ _ _

theorem silent_detectorRoute (p : StraightTrackWithDetector) :
    EachAction Action.Silent p.detectorRoute := by
  refine EachAction.append (.cons ?_ ?_) ?_
  · simp [Action.Silent, Bit.ofSignal]
  · exact silent_simulateRoute _ _ _ _ _
  · exact silent_simulateRoute _ _ _ _ _

/-- The signal of a piece is a variable of the layout. -/
theorem silent_maybeActReg (signal : Option Nat) (value : Bool) : ∀ a ∈
    (maybeActReg (signal.map .foreign) value : Actions Side StraightRoute), a.Silent := by
  cases signal with
  | none => simp [maybeActReg]
  | some n => cases value <;> simp [maybeActReg, Action.Silent, Bit.ofSignal]

theorem silent_signalOccupancy {p : SignalPiece} {signal : Option Nat}
    (hsignal : p.signal = signal.map .foreign) (h : p.signalOccupancy = some ops) :
    EachAction Action.Silent ops := by
  unfold SignalPiece.signalOccupancy at h
  split at h
  · obtain ⟨prevDetector, -, h⟩ := Option.bind_eq_some_iff.mp h
    cases h
    refine .cons (by simp [Action.Silent, Bit.ofSignal]) (.cons ?_ .nil)
    rw [hsignal]
    exact List.forall_mem_append.mpr
      ⟨silent_maybeActReg signal false, by simp [Action.Silent, Bit.ofSignal]⟩
  · exact silent_simulateAllOccupancy h

theorem silent_signalRoute {p : SignalPiece} {green : Nat} {signal : Option Nat}
    (hgreen : p.requestGreen = .foreign green) (hsignal : p.signal = signal.map .foreign) :
    EachAction Action.Silent p.signalRoute := by
  have hforeign : ∀ var, p.signal = some var → var.ofSignal = false := by
    intro var hvar
    rw [hsignal] at hvar
    obtain ⟨n, -, rfl⟩ := Option.map_eq_some_iff.mp hvar
    rfl
  refine EachAction.append (EachAction.append
    (EachAction.append (EachAction.append ?_ ?_) ?_) ?_) ?_
  · exact .cons (by simp [Action.Silent, Bit.ofSignal]) .nil
  · split
    · next var hvar => exact .cons (by simp [Action.Silent, hforeign var hvar]) .nil
    · exact .nil
  · exact silent_simulateRoute _ _ _ _ _
  · refine WriteOnly.silent ?_
    refine writeOnly_simulateSignalFwdRoute _ _ _ _ _ ?_ rfl rfl ?_ hforeign ?_
    · exact fun _ _ h1 h2 => InterfaceVariable.ofSignal_eq_false h1 h2
    · simp [Bit.ofSignal]
    · rw [hgreen]
      rfl
  · split
    · next var hvar => simp [EachAction, Action.Silent, hforeign var hvar]
    · exact .nil

/-- The callback for signals, among callbacks that leave the bits of signals alone. -/
theorem exists_around_signals {plugins : AutomataPlugin Side StraightRoute}
    {occupancy : Option (List (PieceOp Side StraightRoute))}
    {signals routes : List (PieceOp Side StraightRoute)}
    (hplugins : plugins = [(20, occupancy), (23, some signals), (30, some routes),
      (10000, some handleInitState)])
    (hoccupancy : ∀ ops, occupancy = some ops → EachAction Action.Silent ops)
    (hroutes : EachAction Action.Silent routes) (h : plugins.runAll = some ops) :
    ∃ front back, ops = front ++ signals ++ back ∧ EachAction Action.Silent front ∧
      EachAction Action.Silent back := by
  have hinit : EachAction Action.Silent (handleInitState : List (PieceOp Side StraightRoute)) :=
    .cons (by simp [Action.Silent]) .nil
  refine ⟨occupancy.getD [], routes ++ handleInitState, ?_, .getD hoccupancy, hroutes.append hinit⟩
  rw [AutomataPlugin.runAll_eq h, hplugins]
  simp

/-- The operations for the signals stand among others that leave the bits of signals alone. -/
theorem LinePiece.exists_signalOps {p : LinePiece} (h : (p.plugins t).runAll = some ops) :
    ∃ front back, ops = front ++ p.signalOps t ++ back ∧
      EachAction Action.Silent front ∧ EachAction Action.Silent back := by
  cases p with
  | straight p =>
    cases p with
    | short external =>
      exact exists_around_signals rfl (fun _ => silent_simulateAllOccupancy)
        (silent_simulateAllRoutes ⟨t, external.map .foreign⟩) h
    | long external =>
      exact exists_around_signals rfl (fun _ => silent_simulateAllOccupancy)
        (silent_simulateAllRoutes ⟨t, external.map .foreign⟩) h
    | withDetector detector =>
      refine exists_around_signals rfl (fun ops hops => ?_)
        (silent_detectorRoute ⟨⟨t, none⟩, .foreign detector⟩) h
      cases hops
      simp [EachAction, StraightTrackWithDetector.detectorOccupancy, Action.Silent, Bit.ofSignal]
  | signal v =>
    exact exists_around_signals (SignalPiece.plugins_eq _) (fun _ => silent_signalOccupancy rfl)
      (silent_signalRoute rfl rfl) h

end Plugins

/-! ## Runs of a piece -/

namespace LineState

variable (s : LineState) (i : ℤ)

theorem layout_perform (a : Action LineBit Empty) :
    (s.perform i a).layout i = Layout.perform a (s.layout i) := by
  simp [perform, store, layout]

theorem layout_exec (op : Op LineBit Empty) : (s.exec i op).layout i = (s.layout i).exec op := by
  have hacts : ∀ (acts : List (Action LineBit Empty)) (s : LineState),
      (acts.foldl (fun s a => s.perform i a) s).layout i =
        acts.foldl (fun s a => Layout.perform a s) (s.layout i) := by
    intro acts
    induction acts with
    | nil => exact fun _ => rfl
    | cons a acts ih =>
      intro s
      rw [List.foldl_cons, ih, layout_perform, List.foldl_cons]
  unfold exec Layout.exec
  split
  · exact hacts op.acts s
  · rfl

/-- The automaton of a piece runs on the layout that it sees. -/
theorem layout_run (ops : List (Op LineBit Empty)) :
    (s.run i ops).layout i = (s.layout i).run ops := by
  induction ops generalizing s with
  | nil => rfl
  | cons op ops ih =>
    have hrun := ih (s.exec i op)
    rw [layout_exec] at hrun
    exact hrun

theorem bits_run (ops : List (Op LineBit Empty)) :
    (s.run i ops).bits = ((s.layout i).run ops).bits :=
  congrArg Layout.bits (s.layout_run i ops)

end LineState

/-- Such operations leave what interfaces are told about signals. -/
theorem bits_run_silent {i : ℤ} {sideA sideB x : LineInterface} {v : InterfaceVariable}
    (hv : v.ofSignal = true) {ops : List (PieceOp Side StraightRoute)}
    (hops : EachAction Action.Silent ops) (s : Layout LineBit) :
    (s.run (ops.map (·.map (resolve i sideA sideB)))).bits (.interface x v) =
      s.bits (.interface x v) := by
  have hne : ∀ var : Bit Side StraightRoute, var.ofSignal = false →
      LineBit.interface x v ≠ resolve i sideA sideB var := by
    intro var hvar heq
    cases var with
    | interface place w =>
      have hw : v = w := by
        cases place with
        | side side => exact (LineBit.interface.inj heq).2
        | other n => cases n <;> exact (LineBit.interface.inj heq).2
      subst hw
      exact absurd (hv.symm.trans hvar) (by simp)
    | _ => cases heq
  refine s.run_keeps (I := fun t => t.bits (.interface x v) = s.bits (.interface x v)) rfl
    fun op hop t ht => ?_
  obtain ⟨op, hmem, rfl⟩ := List.mem_map.mp hop
  refine t.exec_keeps (I := fun t => t.bits (.interface x v) = s.bits (.interface x v)) ht
    fun a ha u hu => ?_
  obtain ⟨a, hact, rfl⟩ := List.mem_map.mp ha
  have hsilent := hops op hmem a hact
  cases a with
  | actReg0 var =>
    exact (Function.update_of_ne (hne var hsilent) false u.bits).trans hu
  | actReg1 var =>
    exact (Function.update_of_ne (hne var hsilent) true u.bits).trans hu
  | _ => exact hu

section HandOn

/-- A piece between two sides hands on the numbers, the one towards side a by a function. -/
structure HandsOn (i : ℤ) (f : Nat → Nat) (bits bits' : LineBit → Bool) : Prop where
  ahead : signalNumber bits' (i - 1, .b) = f (signalNumber bits (i, .b))
  behind : signalNumber bits' (i + 1, .a) = signalNumber bits (i, .a)
  other : ∀ x, x ≠ (i - 1, .b) → x ≠ (i + 1, .a) → signalNumber bits' x = signalNumber bits x

section Copy

variable {f : Bit Side StraightRoute → LineBit} {src dst : CtrlTrackInterface Side}
  {x y : LineInterface}

/-- `CopySignals`, by the bits of the line. -/
theorem bits_copySignals (hsrc : ∀ v, f (.interface src v) = .interface x v)
    (hdst : ∀ v, f (.interface dst v) = .interface y v) (s : Layout LineBit) :
    (s.run ((copySignals src dst []).map (·.map f))).bits =
      Function.update (Function.update s.bits (.interface y .inNextSignal1)
        (s.bits (.interface x .inNextSignal1))) (.interface y .inNextSignal2)
          (s.bits (.interface x .inNextSignal2)) := by
  have hops : (copySignals src dst []).map (·.map f) =
      ([⟨[.ifReg0 (.interface x .inNextSignal1), .ifReg1 (.interface y .inNextSignal1)],
          [.actReg0 (.interface y .inNextSignal1)]⟩,
        ⟨[.ifReg1 (.interface x .inNextSignal1), .ifReg0 (.interface y .inNextSignal1)],
          [.actReg1 (.interface y .inNextSignal1)]⟩] ++
      [⟨[.ifReg0 (.interface x .inNextSignal2), .ifReg1 (.interface y .inNextSignal2)],
          [.actReg0 (.interface y .inNextSignal2)]⟩,
        ⟨[.ifReg1 (.interface x .inNextSignal2), .ifReg0 (.interface y .inNextSignal2)],
          [.actReg1 (.interface y .inNextSignal2)]⟩] : List (Op LineBit Empty)) := by
    simp [copySignals, defCopy, Op.map, Condition.map, Action.map, hsrc, hdst]
  rw [hops, Layout.run_append, Layout.bits_copy, Layout.bits_copy, Function.update_of_ne (by simp)]

/-- The copy has the number, and the other interfaces keep theirs. -/
theorem signalNumber_copySignals (hsrc : ∀ v, f (.interface src v) = .interface x v)
    (hdst : ∀ v, f (.interface dst v) = .interface y v) (s : Layout LineBit) (z : LineInterface) :
    signalNumber (s.run ((copySignals src dst []).map (·.map f))).bits z =
      if z = y then signalNumber s.bits x else signalNumber s.bits z := by
  rw [bits_copySignals hsrc hdst]
  by_cases hz : z = y
  · subst hz
    simp [signalNumber]
  · simp [signalNumber, hz]

end Copy

/-- The increment, by numbers. -/
theorem signalNumber_increment {x y : LineInterface} (hxy : x ≠ y) {g : LineBit}
    (hgreen : ∀ v, g ≠ .interface y v) (s : Layout LineBit) :
    let bits := (s.run (G := Empty)
      [⟨[.ifReg0 g],
          [.actReg0 (.interface y .inNextSignal1), .actReg0 (.interface y .inNextSignal2)]⟩,
        ⟨[.ifReg1 g, .ifReg0 (.interface x .inNextSignal2), .ifReg0 (.interface x .inNextSignal1)],
          [.actReg0 (.interface y .inNextSignal2), .actReg1 (.interface y .inNextSignal1)]⟩,
        ⟨[.ifReg1 g, .ifReg0 (.interface x .inNextSignal2), .ifReg1 (.interface x .inNextSignal1)],
          [.actReg1 (.interface y .inNextSignal2), .actReg0 (.interface y .inNextSignal1)]⟩,
        ⟨[.ifReg1 g, .ifReg1 (.interface x .inNextSignal2)],
          [.actReg1 (.interface y .inNextSignal2), .actReg1 (.interface y .inNextSignal1)]⟩]).bits
    signalNumber bits y = countSignal (s.bits g) (signalNumber s.bits x) ∧
      ∀ z, z ≠ y → signalNumber bits z = signalNumber s.bits z := by
  intro bits
  obtain ⟨hcount, hrest⟩ := s.bits_increment g (.interface x .inNextSignal1)
    (.interface x .inNextSignal2) (.interface y .inNextSignal1) (.interface y .inNextSignal2)
    (hgreen _) (hgreen _) (by simp [hxy]) (by simp) (by simp) (by simp [hxy]) (by simp)
  refine ⟨hcount, fun z hz => ?_⟩
  have h1 : bits (.interface z .inNextSignal1) = s.bits (.interface z .inNextSignal1) :=
    hrest _ (by simp [hz]) (by simp)
  have h2 : bits (.interface z .inNextSignal2) = s.bits (.interface z .inNextSignal2) :=
    hrest _ (by simp) (by simp [hz])
  rw [signalNumber, signalNumber, h1, h2]

/-- First the number is copied towards side b, then the one towards side a is made. -/
theorem HandsOn.of_copied {i : ℤ} {f : Nat → Nat} {bits bits' bits'' : LineBit → Bool}
    (hcopied : ∀ z, signalNumber bits' z =
      if z = (i + 1, .a) then signalNumber bits (i, .a) else signalNumber bits z)
    (hahead : signalNumber bits'' (i - 1, .b) = f (signalNumber bits' (i, .b)))
    (hrest : ∀ z, z ≠ (i - 1, .b) → signalNumber bits'' z = signalNumber bits' z) :
    HandsOn i f bits bits'' := by
  refine ⟨?_, ?_, fun z hz hz' => ?_⟩
  · rw [hahead, hcopied, if_neg (by simp)]
  · rw [hrest _ (by simp), hcopied, if_pos rfl]
  · rw [hrest z hz, hcopied, if_neg hz']

theorem HandsOn.congr {i : ℤ} {f : Nat → Nat} {bits₀ bits bits' bits₁ : LineBit → Bool}
    (h : HandsOn i f bits bits') (hbefore : ∀ z, signalNumber bits z = signalNumber bits₀ z)
    (hafter : ∀ z, signalNumber bits₁ z = signalNumber bits' z) : HandsOn i f bits₀ bits₁ := by
  refine ⟨?_, ?_, fun z hz hz' => ?_⟩
  · rw [hafter, h.ahead, hbefore]
  · rw [hafter, h.behind, hbefore]
  · rw [hafter, h.other z hz hz', hbefore]

/-- The sides of a piece of a line are bound to others. -/
def Track.Joined (t : Track Side StraightRoute) : Prop :=
  (t.binding .a).interface = .other 0 ∧ (t.binding .b).interface = .other 1

section Operations

variable {t : Track Side StraightRoute} (ht : t.Joined) (i : ℤ) (s : Layout LineBit)

/-- The bits after the copy towards side b. -/
theorem signalNumber_towardsB (z : LineInterface) :
    signalNumber (s.run ((copySignals (.side .a) (.other 1) []).map
      (·.map (resolve i (i - 1, .b) (i + 1, .a))))).bits z =
      if z = (i + 1, .a) then signalNumber s.bits (i, .a) else signalNumber s.bits z :=
  signalNumber_copySignals (fun _ => rfl) (fun _ => rfl) s z

include ht

/-- What the operations of a straight track for the signals do. -/
theorem handsOn_straight (p : StraightPiece) :
    HandsOn i id s.bits (s.run (((LinePiece.straight p).signalOps t).map
      (·.map (resolve i (i - 1, .b) (i + 1, .a))))).bits := by
  obtain ⟨hsideA, hsideB⟩ := ht
  simp only [LinePiece.signalOps, StraightTrack.copySignalState, hsideA, hsideB, List.map_append,
    Layout.run_append]
  have hcopied := signalNumber_towardsB i s
  generalize s.run ((copySignals (.side .a) (.other 1) []).map
    (·.map (resolve i (i - 1, .b) (i + 1, .a)))) = u at hcopied ⊢
  have hahead : ∀ z, signalNumber (u.run ((copySignals (.side .b) (.other 0) []).map
      (·.map (resolve i (i - 1, .b) (i + 1, .a))))).bits z =
      if z = (i - 1, .b) then signalNumber u.bits (i, .b) else signalNumber u.bits z :=
    signalNumber_copySignals (fun _ => rfl) (fun _ => rfl) u
  refine .of_copied hcopied ?_ fun z hz => ?_
  · rw [hahead, if_pos rfl]
    rfl
  · rw [hahead, if_neg hz]

/-- What the operations of a signal for the signals do. -/
theorem handsOn_signal (v : SignalVariables) :
    HandsOn i (countSignal (s.bits (.piece i (.routeSet .ab)))) s.bits
      (s.run (((LinePiece.signal v).signalOps t).map
        (·.map (resolve i (i - 1, .b) (i + 1, .a))))).bits := by
  obtain ⟨hsideA, hsideB⟩ := ht
  simp only [LinePiece.signalOps, SignalPiece.setSignalState, hsideA, hsideB, List.map_append,
    Layout.run_append]
  have hcopied := signalNumber_towardsB i s
  have hgreen : (s.run ((copySignals (.side .a) (.other 1) []).map
      (·.map (resolve i (i - 1, .b) (i + 1, .a))))).bits (.piece i (.routeSet .ab)) =
      s.bits (.piece i (.routeSet .ab)) := by
    rw [bits_copySignals (x := (i, .a)) (y := (i + 1, .a)) (fun _ => rfl) (fun _ => rfl)]
    simp
  generalize s.run ((copySignals (.side .a) (.other 1) []).map
    (·.map (resolve i (i - 1, .b) (i + 1, .a)))) = u at hcopied hgreen ⊢
  have hne : ((i, .b) : LineInterface) ≠ (i - 1, .b) := by
    simp only [ne_eq, Prod.mk.injEq, and_true]
    omega
  obtain ⟨hcount, hrest⟩ := signalNumber_increment hne (g := .piece i (.routeSet .ab)) (by simp) u
  rw [← hgreen]
  exact .of_copied hcopied hcount hrest

end Operations

/-- Operations that leave the bits of signals alone leave the numbers. -/
theorem signalNumber_run_silent {i : ℤ} {sideA sideB : LineInterface}
    {ops : List (PieceOp Side StraightRoute)} (hops : EachAction Action.Silent ops)
    (s : Layout LineBit) (z : LineInterface) :
    signalNumber (s.run (ops.map (·.map (resolve i sideA sideB)))).bits z =
      signalNumber s.bits z := by
  rw [signalNumber, bits_run_silent rfl hops, bits_run_silent rfl hops, signalNumber]

/-- A run of a piece hands on the numbers, by its route bit somewhere in the run. -/
theorem TrackLine.handsOn_body {l : TrackLine} {i : Nat} {ops : List (Op LineBit Empty)}
    (hbody : l.body i = some ops) (s : LineState) :
    ∃ piece past future, l.pieces[i]? = some piece ∧ ops = past ++ future ∧
      HandsOn i (piece.passOn ((s.run i past).bits (.piece i (.routeSet .ab)))) s.bits
        (s.run i ops).bits := by
  obtain ⟨piece, rendered, hpiece, hrendered, rfl⟩ := TrackLine.body_eq_some hbody
  obtain ⟨front, back, rfl, hfront, hback⟩ := LinePiece.exists_signalOps hrendered
  have hjoined : (l.track i).Joined := ⟨rfl, rfl⟩
  refine ⟨piece, front.map (·.map (resolve i ((i : ℤ) - 1, .b) ((i : ℤ) + 1, .a))), _, hpiece,
    by rw [List.append_assoc, List.map_append], ?_⟩
  rw [LineState.bits_run, LineState.bits_run, List.map_append, List.map_append, Layout.run_append,
    Layout.run_append]
  have hbefore : ∀ z, signalNumber ((s.layout i).run (front.map
      (·.map (resolve i ((i : ℤ) - 1, .b) ((i : ℤ) + 1, .a))))).bits z = signalNumber s.bits z :=
    signalNumber_run_silent hfront (s.layout i)
  refine HandsOn.congr ?_ hbefore (signalNumber_run_silent hback _)
  cases piece with
  | straight p => exact handsOn_straight hjoined i _ p
  | signal v => exact handsOn_signal hjoined i _ v

end HandOn

end OpenmrnCue.Automata
