import OpenmrnCue.Library.Cascade
import OpenmrnCue.Automata.TrackLine

/-! What the pieces of a line are told about the signals ahead.  The pieces run in any order.  Once
they have run in order, from the far end on, each of them is told how many signals in a row are
green, and that does not change any more. -/

namespace OpenmrnCue.Automata

def LinePiece.isSignal : LinePiece → Bool
  | .straight _ => false
  | .signal _ => true

namespace TrackLine

variable (l : TrackLine)

/-- A change from outside: nothing else tells an interface about signals if a piece does. -/
structure Outside (s s' : LineState) : Prop where
  ahead : ∀ i : ℕ, i < l.pieces.length → s'.nextSignal (i - 1, .b) = s.nextSignal (i - 1, .b)
  behind : ∀ i : ℕ, i < l.pieces.length → s'.nextSignal (i + 1, .a) = s.nextSignal (i + 1, .a)

/-- Runs of the pieces with these numbers, where a condition holds throughout: also between the
operations of a run. -/
inductive Runs (throughout : LineState → Prop) : List ℕ → LineState → LineState → Prop
  | start {s : LineState} (hs : throughout s) : Runs throughout [] s s
  | run {schedule : List ℕ} {s s' : LineState} (h : Runs throughout schedule s s') {i : ℕ}
      {ops : List (Op LineBit Empty)} (hbody : l.body i = some ops)
      (hs : ∀ past future, ops = past ++ future → throughout (s'.run i past)) :
      Runs throughout (schedule ++ [i]) s (s'.run i ops)
  | outside {schedule : List ℕ} {s s' s'' : LineState} (h : Runs throughout schedule s s')
      (houtside : l.Outside s' s'') (hs : throughout s'') : Runs throughout schedule s s''

/-- The route bits of the signals are these. -/
def Green (green : ℕ → Bool) (s : LineState) : Prop :=
  ∀ (i : ℕ) (v : SignalVariables), l.pieces[i]? = some (.signal v) →
    s.bits (.piece i (.routeSet .ab)) = green i

/-- Nothing changes what the far end of the line tells, nor the route bits of the signals. -/
def SteadyAhead (green : ℕ → Bool) (far : ℕ) (s : LineState) : Prop :=
  l.Green green s ∧ s.nextSignal ((l.pieces.length : ℤ) - 1, .b) = far

/-- Nothing changes what the other end tells. -/
def SteadyBehind (far : ℕ) (s : LineState) : Prop := s.nextSignal (0, .a) = far

/-- The route bits of the signals from a piece on. -/
def signalsFrom (green : ℕ → Bool) (i : ℕ) : List Bool :=
  ((List.range' i (l.pieces.length - i)).filter fun j => l.pieces[j]?.any (·.isSignal)).map green

end TrackLine

/-- The number of signals in a row that are green, up to three.  Behind them, the number at the far
end counts. -/
def greenAhead (signals : List Bool) (far : ℕ) : ℕ :=
  min 3 ((signals.takeWhile id).length + if signals.all id then far else 0)

example : greenAhead [true, true, false, true] 3 = 2 := rfl

/-! ## Greens in a row -/

section Greens

variable {far : ℕ} {signals : List Bool}

theorem greenAhead_nil (hfar : far ≤ 3) : greenAhead [] far = far := by
  simp [greenAhead, hfar]

/-- A signal counts itself if it is green. -/
theorem greenAhead_cons (green : Bool) :
    greenAhead (green :: signals) far = countSignal green (greenAhead signals far) := by
  cases green with
  | false => simp [greenAhead, countSignal]
  | true =>
    simp only [greenAhead, countSignal, List.takeWhile_cons, List.all_cons, id, if_true,
      List.length_cons, Bool.true_and]
    omega

theorem signalNumber_le (bits : LineBit → Bool) (x : LineInterface) : signalNumber bits x ≤ 3 := by
  have h1 := Bool.toNat_le (bits (.interface x .inNextSignal1))
  have h2 := Bool.toNat_le (bits (.interface x .inNextSignal2))
  unfold signalNumber
  omega

end Greens

namespace TrackLine

variable {l : TrackLine} {green : ℕ → Bool} {far : ℕ} {schedule : List ℕ} {s s' : LineState}

theorem signalsFrom_length : l.signalsFrom green l.pieces.length = [] := by
  simp [signalsFrom]

/-- The signals from a piece on are the piece, if it is one, and those behind it. -/
theorem greenAhead_signalsFrom {i : ℕ} {piece : LinePiece} (hpiece : l.pieces[i]? = some piece) :
    greenAhead (l.signalsFrom green i) far =
      piece.passOn (green i) (greenAhead (l.signalsFrom green (i + 1)) far) := by
  have hi := (List.getElem?_eq_some_iff.mp hpiece).1
  have hrange : List.range' i (l.pieces.length - i) =
      i :: List.range' (i + 1) (l.pieces.length - (i + 1)) := by
    rw [show l.pieces.length - i = l.pieces.length - (i + 1) + 1 by omega, List.range'_succ]
  cases piece with
  | straight p =>
    simp [signalsFrom, hrange, hpiece, LinePiece.isSignal, LinePiece.passOn]
  | signal v =>
    rw [LinePiece.passOn, ← greenAhead_cons]
    simp [signalsFrom, hrange, hpiece, LinePiece.isSignal]

/-! ## Lines as cascades -/

theorem Runs.throughout {P : LineState → Prop} (h : l.Runs P schedule s s') : P s' := by
  cases h with
  | start hs => exact hs
  | run _ _ hs => exact hs _ [] (List.append_nil _).symm
  | outside _ _ hs => exact hs

theorem Runs.initially {P : LineState → Prop} (h : l.Runs P schedule s s') : P s := by
  induction h with
  | start hs => exact hs
  | run _ _ _ ih => exact ih
  | outside _ _ _ ih => exact ih

theorem Runs.append {P : LineState → Prop} {more : List ℕ} {s'' : LineState}
    (h : l.Runs P schedule s s') (hmore : l.Runs P more s' s'') :
    l.Runs P (schedule ++ more) s s'' := by
  induction hmore with
  | start _ => rwa [List.append_nil]
  | run _ hbody hs ih => exact List.append_assoc .. ▸ (ih h).run hbody hs
  | outside _ houtside hs ih => exact (ih h).outside houtside hs

/-- A run of a piece hands on the numbers, by the route bit that stays. -/
theorem handsOn_run {i : ℕ} {ops : List (Op LineBit Empty)} (hbody : l.body i = some ops)
    (hs : ∀ past future, ops = past ++ future → l.Green green (s.run i past)) :
    ∃ piece, l.pieces[i]? = some piece ∧
      HandsOn i (piece.passOn (green i)) s.bits (s.run i ops).bits := by
  obtain ⟨piece, past, future, hpiece, heq, hhands⟩ := handsOn_body hbody s
  refine ⟨piece, hpiece, ?_⟩
  cases piece with
  | straight p => exact hhands
  | signal v =>
    rw [hs past future heq i v hpiece] at hhands
    exact hhands

/-- What the interfaces before the pieces are told, from the far end on. -/
def ahead (l : TrackLine) (s : LineState) (k : ℕ) : ℕ :=
  s.nextSignal ((l.pieces.length : ℤ) - 1 - k, .b)

/-- What the pieces do from the far end on. -/
def passOnAhead (l : TrackLine) (green : ℕ → Bool) (k : ℕ) (ahead : ℕ) : ℕ :=
  match l.pieces[l.pieces.length - 1 - k]? with
  | some piece => piece.passOn (green (l.pieces.length - 1 - k)) ahead
  | none => ahead

/-- The runs of the pieces, from the far end on. -/
theorem Runs.ahead (h : l.Runs (l.SteadyAhead green far) schedule s s') :
    Cascade.Runs (l.passOnAhead green) l.pieces.length
      (schedule.map fun i => l.pieces.length - 1 - i) (l.ahead s) (l.ahead s') := by
  induction h with
  | start _ => exact .start _
  | @run schedule s s' h i ops hbody hs ih =>
    obtain ⟨piece, hpiece, hhands⟩ :=
      handsOn_run hbody fun past future heq => (hs past future heq).1
    have hi := (List.getElem?_eq_some_iff.mp hpiece).1
    rw [List.map_append, List.map_singleton]
    refine ih.stage ⟨by omega, ?_, fun j hj hne => ?_⟩
    · rw [passOnAhead, show l.pieces.length - 1 - (l.pieces.length - 1 - i) = i by omega, hpiece]
      simp only [TrackLine.ahead]
      rw [show (l.pieces.length : ℤ) - 1 - ((l.pieces.length - 1 - i + 1 : ℕ) : ℤ) = i - 1 by omega,
        show (l.pieces.length : ℤ) - 1 - ((l.pieces.length - 1 - i : ℕ) : ℤ) = i by omega]
      exact hhands.ahead
    · refine hhands.other _ ?_ (by simp)
      simp only [ne_eq, Prod.mk.injEq, and_true]
      omega
  | @outside schedule s s' s'' h houtside hs ih =>
    refine ih.still fun j hj => ?_
    simp only [TrackLine.ahead]
    cases j with
    | zero => simpa using hs.2.trans h.throughout.2.symm
    | succ j =>
      have hpiece := houtside.ahead (l.pieces.length - (j + 1)) (by omega)
      rw [show ((l.pieces.length - (j + 1) : ℕ) : ℤ) - 1 =
        (l.pieces.length : ℤ) - 1 - ((j + 1 : ℕ) : ℤ) by omega] at hpiece
      exact hpiece

/-- What the interfaces behind the pieces are told. -/
def behind (s : LineState) (k : ℕ) : ℕ := s.nextSignal (k, .a)

/-- The runs of the pieces, in the other direction. -/
theorem Runs.behind (h : l.Runs (SteadyBehind far) schedule s s') :
    Cascade.Runs (fun _ => id) l.pieces.length schedule (behind s) (behind s') := by
  induction h with
  | start _ => exact .start _
  | @run schedule s s' h i ops hbody hs ih =>
    obtain ⟨piece, past, future, hpiece, -, hhands⟩ := handsOn_body hbody s'
    have hi := (List.getElem?_eq_some_iff.mp hpiece).1
    refine ih.stage ⟨hi, ?_, fun j hj hne => ?_⟩
    · simp only [TrackLine.behind, id]
      rw [show ((i + 1 : ℕ) : ℤ) = (i : ℤ) + 1 by omega]
      exact hhands.behind
    · refine hhands.other _ (by simp) ?_
      simp only [ne_eq, Prod.mk.injEq, and_true]
      omega
  | @outside schedule s s' s'' h houtside hs ih =>
    refine ih.still fun j hj => ?_
    simp only [TrackLine.behind]
    cases j with
    | zero => simpa using hs.trans h.throughout.symm
    | succ j =>
      have hpiece := houtside.behind j (by omega)
      rw [show ((j : ℤ) + 1) = ((j + 1 : ℕ) : ℤ) by omega] at hpiece
      exact hpiece

/-! ## Settled lines -/

/-- The values that the far end leads to. -/
theorem settled_ahead (hfar : far ≤ 3) {k : ℕ} (hk : k ≤ l.pieces.length) :
    Cascade.settled (l.passOnAhead green) far k =
      greenAhead (l.signalsFrom green (l.pieces.length - k)) far := by
  induction k with
  | zero => rw [Nat.sub_zero, signalsFrom_length, greenAhead_nil hfar, Cascade.settled]
  | succ k ih =>
    have hget : l.pieces[l.pieces.length - (k + 1)]? =
        some l.pieces[l.pieces.length - (k + 1)] := List.getElem?_eq_getElem (by omega)
    rw [Cascade.settled, ih (by omega), greenAhead_signalsFrom hget, passOnAhead,
      show l.pieces.length - 1 - k = l.pieces.length - (k + 1) by omega, hget,
      show l.pieces.length - (k + 1) + 1 = l.pieces.length - k by omega]

theorem settled_behind (k : ℕ) : Cascade.settled (fun _ => id) far k = far := by
  induction k with
  | zero => rfl
  | succ k ih => exact ih

/-- The order from the far end on. -/
theorem range_of_reverse {n : ℕ} (horder : List.Sublist (List.range n).reverse schedule) :
    List.Sublist (List.range n) (schedule.map fun i => n - 1 - i) := by
  have hmap := horder.map fun i => n - 1 - i
  have hrange : (List.range n).reverse.map (fun i => n - 1 - i) = List.range n := by
    refine List.ext_getElem (by simp) fun i hi hi' => ?_
    simp only [List.length_range] at hi'
    simp only [List.getElem_map, List.getElem_reverse, List.getElem_range, List.length_range]
    omega
  rwa [hrange] at hmap

/-- After runs from the far end on, each piece is told how many signals are green. -/
theorem Runs.greenAhead (h : l.Runs (l.SteadyAhead green far) schedule s s')
    (horder : List.Sublist (List.range l.pieces.length).reverse schedule) {i : ℕ}
    (hi : i < l.pieces.length) :
    s'.nextSignal (i - 1, .b) = Automata.greenAhead (l.signalsFrom green i) far := by
  have hstart : l.ahead s 0 = far := by
    simpa [TrackLine.ahead] using h.initially.2
  have hfar : far ≤ 3 := hstart ▸ signalNumber_le _ _
  have hsettled := h.ahead.settles hstart le_rfl (range_of_reverse horder) (l.pieces.length - i)
    (Nat.sub_le _ _)
  rw [settled_ahead hfar (Nat.sub_le _ _), TrackLine.ahead,
    show l.pieces.length - (l.pieces.length - i) = i by omega,
    show (l.pieces.length : ℤ) - 1 - ((l.pieces.length - i : ℕ) : ℤ) = i - 1 by omega] at hsettled
  exact hsettled

/-- After runs in the other order, each piece tells what the other end tells. -/
theorem Runs.farBehind (h : l.Runs (SteadyBehind far) schedule s s')
    (horder : List.Sublist (List.range l.pieces.length) schedule) {i : ℕ}
    (hi : i < l.pieces.length) : s'.nextSignal (i + 1, .a) = far := by
  have hstart : TrackLine.behind s 0 = far := h.initially
  have hsettled := h.behind.settles hstart le_rfl horder (i + 1) hi
  rwa [settled_behind, TrackLine.behind, show ((i + 1 : ℕ) : ℤ) = (i : ℤ) + 1 by omega] at hsettled

/-- Signals announce the number of free sections ahead, and further runs change nothing; in the
other direction, what the far end tells arrives as it is. -/
theorem signals_announce_sections (l : TrackLine) :
    (∀ (green : ℕ → Bool) (far : ℕ) (schedule : List ℕ) (s s' : LineState),
      l.Runs (l.SteadyAhead green far) schedule s s' →
      List.Sublist (List.range l.pieces.length).reverse schedule →
      (∀ i : ℕ, i < l.pieces.length →
        s'.nextSignal (i - 1, .b) = Automata.greenAhead (l.signalsFrom green i) far) ∧
      ∀ (more : List ℕ) (s'' : LineState), l.Runs (l.SteadyAhead green far) more s' s'' →
        ∀ i : ℕ, i < l.pieces.length → s''.nextSignal (i - 1, .b) = s'.nextSignal (i - 1, .b)) ∧
    ∀ (far : ℕ) (schedule : List ℕ) (s s' : LineState),
      l.Runs (SteadyBehind far) schedule s s' →
      List.Sublist (List.range l.pieces.length) schedule →
      (∀ i : ℕ, i < l.pieces.length → s'.nextSignal (i + 1, .a) = far) ∧
      ∀ (more : List ℕ) (s'' : LineState), l.Runs (SteadyBehind far) more s' s'' →
        ∀ i : ℕ, i < l.pieces.length → s''.nextSignal (i + 1, .a) = s'.nextSignal (i + 1, .a) := by
  refine ⟨fun green far schedule s s' h horder => ⟨fun i hi => h.greenAhead horder hi,
    fun more s'' hmore i hi => ?_⟩, fun far schedule s s' h horder =>
    ⟨fun i hi => h.farBehind horder hi, fun more s'' hmore i hi => ?_⟩⟩
  · rw [h.greenAhead horder hi]
    exact (h.append hmore).greenAhead (horder.trans (List.sublist_append_left _ _)) hi
  · rw [h.farBehind horder hi]
    exact (h.append hmore).farBehind (horder.trans (List.sublist_append_left _ _)) hi

/-! ### A short line -/

/-- A signal in front of a short track. -/
def signalAndShort : TrackLine where
  pieces := [.signal ⟨0, none, 1, none⟩, .straight (.short none)]
  before := ⟨some 2, none⟩
  after := ⟨some 3, none⟩
  hasResetRoutes := false

/-- The signal is green, and so are two others at the far end; at the other end, it is one. -/
def twoGreenAhead : LineState where
  state _ := 1
  timer _ := 0
  aspect _ := 0
  bits var := decide (var = .piece 0 (.routeSet .ab) ∨ var = .interface (1, .b) .inNextSignal2 ∨
    var = .interface (0, .a) .inNextSignal1)
  values _ _ := 0

/-- The piece runs once. -/
def runPiece (l : TrackLine) (s : LineState) (i : ℕ) : LineState := s.run i ((l.body i).getD [])

/-- A run of a piece, where each state in between is looked at. -/
theorem Runs.piece {P : LineState → Prop} (h : l.Runs P schedule s s') {i : ℕ}
    (hbody : (l.body i).isSome) (hs : ∀ k ∈ List.range (((l.body i).getD []).length + 1),
      P (s'.run i (((l.body i).getD []).take k))) :
    l.Runs P (schedule ++ [i]) s (l.runPiece s' i) := by
  obtain ⟨ops, hops⟩ := Option.isSome_iff_exists.mp hbody
  rw [hops, Option.getD_some] at hs
  have hrun : l.runPiece s' i = s'.run i ops := by
    rw [runPiece, hops, Option.getD_some]
  rw [hrun]
  refine h.run hops fun past future heq => ?_
  have hlength : past.length < ops.length + 1 := by
    rw [heq, List.length_append]
    omega
  have hpast := hs past.length (List.mem_range.mpr hlength)
  rwa [heq, List.take_left] at hpast

/-- What is looked at. -/
theorem steadyAhead_signalAndShort {t : LineState} (h : t.bits (.piece 0 (.routeSet .ab)) = true ∧
    t.nextSignal (1, .b) = 2) : signalAndShort.SteadyAhead (fun _ => true) 2 t := by
  refine ⟨fun i v hi => ?_, h.2⟩
  match i with
  | 0 => exact h.1
  | 1 => cases hi
  | i + 2 => cases hi

/-- The signal counts itself and the two at the far end; the other end is one signal away. -/
theorem signalAndShort_announces :
    (signalAndShort.runPiece (signalAndShort.runPiece twoGreenAhead 1) 0).nextSignal (-1, .b) = 3 ∧
    (signalAndShort.runPiece (signalAndShort.runPiece (signalAndShort.runPiece twoGreenAhead 1) 0)
      1).nextSignal (-1, .b) = 3 ∧
    (signalAndShort.runPiece (signalAndShort.runPiece twoGreenAhead 0) 1).nextSignal (2, .a) = 1 ∧
    (signalAndShort.runPiece (signalAndShort.runPiece (signalAndShort.runPiece twoGreenAhead 0) 1)
      0).nextSignal (2, .a) = 1 := by
  have hahead : signalAndShort.Runs (signalAndShort.SteadyAhead (fun _ => true) 2) [1, 0]
      twoGreenAhead (signalAndShort.runPiece (signalAndShort.runPiece twoGreenAhead 1) 0) := by
    refine Runs.piece (Runs.piece (.start ?_) rfl fun k hk => ?_) rfl fun k hk => ?_
    · exact steadyAhead_signalAndShort (by decide)
    · exact steadyAhead_signalAndShort (by revert k; decide)
    · exact steadyAhead_signalAndShort (by revert k; decide)
  have hmore : signalAndShort.Runs (signalAndShort.SteadyAhead (fun _ => true) 2) [1]
      (signalAndShort.runPiece (signalAndShort.runPiece twoGreenAhead 1) 0)
      (signalAndShort.runPiece (signalAndShort.runPiece
        (signalAndShort.runPiece twoGreenAhead 1) 0) 1) := by
    refine Runs.piece (.start hahead.throughout) rfl fun k hk => ?_
    exact steadyAhead_signalAndShort (by revert k; decide)
  have hbehind : signalAndShort.Runs (SteadyBehind 1) [0, 1]
      twoGreenAhead (signalAndShort.runPiece (signalAndShort.runPiece twoGreenAhead 0) 1) := by
    refine Runs.piece (Runs.piece (.start ?_) rfl fun k hk => ?_) rfl fun k hk => ?_
    · show twoGreenAhead.nextSignal (0, .a) = 1
      decide
    · unfold SteadyBehind
      revert k
      decide
    · unfold SteadyBehind
      revert k
      decide
  have hmore' : signalAndShort.Runs (SteadyBehind 1) [0]
      (signalAndShort.runPiece (signalAndShort.runPiece twoGreenAhead 0) 1)
      (signalAndShort.runPiece (signalAndShort.runPiece
        (signalAndShort.runPiece twoGreenAhead 0) 1) 0) := by
    refine Runs.piece (.start hbehind.throughout) rfl fun k hk => ?_
    unfold SteadyBehind
    revert k
    decide
  obtain ⟨hfirst, hkeeps⟩ := (signals_announce_sections signalAndShort).1 _ _ _ _ _ hahead
    (List.Sublist.refl _)
  obtain ⟨hfirst', hkeeps'⟩ := (signals_announce_sections signalAndShort).2 _ _ _ _ hbehind
    (List.Sublist.refl _)
  have hthree : greenAhead (signalAndShort.signalsFrom (fun _ => true) 0) 2 = 3 := by decide
  exact ⟨(hfirst 0 (by decide)).trans hthree,
    (hkeeps _ _ hmore 0 (by decide)).trans ((hfirst 0 (by decide)).trans hthree),
    hfirst' 1 (by decide), (hkeeps' _ _ hmore' 1 (by decide)).trans (hfirst' 1 (by decide))⟩

end TrackLine

end OpenmrnCue.Automata
