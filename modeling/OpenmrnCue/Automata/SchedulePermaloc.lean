import OpenmrnCue.Automata.TrainSchedule

/-! The train of a schedule: of the permaloc bits exactly one is set, whatever calls the body makes.
Only two operations of a transition write permaloc bits, and each moves the one that is set, since
the permaloc of the next block is bound whenever the one of the current block is set. -/

namespace OpenmrnCue.TrainSchedule

open LateBinding Local

variable {X : Type} [DecidableEq X] {s s' t : TrainState X}

/-! ## What the local variables stand for -/

/-- What a local variable is bound to. -/
def kind (l : Local) (v : Var X) : Prop :=
  match l with
  | currentBlockPermaloc => ∃ n, v = .permaloc n
  | nextBlockPermaloc => ∃ n, v = .permaloc n
  | currentBlockRoutingloc => ∃ n, v = .routingloc n
  | nextBlockRoutingloc => ∃ n, v = .routingloc n
  | currentDirection => ∃ k, v = .helper k
  | _ => ∃ x, v = .layout x

/-- An action binds local variables to variables of their kind, and does not write permaloc bits. -/
def Mild (a : Act X) : Prop := a.BindsBy kind ∧ ∀ n, a.Spares kind (.permaloc n)

/-- All actions of the operations are mild and bind none of these local variables. -/
def MildOps (slots : List Local) (ops : List (TrainOp X)) : Prop :=
  ∀ op ∈ ops, ∀ a ∈ op.actions, Mild a ∧ ∀ l ∈ slots, a.Leaves l

section Syntax

variable {slots : List Local} {ops ops' : List (TrainOp X)}

@[simp] theorem mem_maybe {α : Type} {enabled : Bool} {x y : α} :
    x ∈ maybe enabled y ↔ enabled = true ∧ x = y := by
  cases enabled <;> simp [maybe]

omit [DecidableEq X] in
theorem MildOps.append (h : MildOps slots ops) (h' : MildOps slots ops') :
    MildOps slots (ops ++ ops') := by
  intro op hop
  rcases List.mem_append.mp hop with hop | hop
  · exact h op hop
  · exact h' op hop

omit [DecidableEq X] in
@[simp] theorem mild_write {r : Reg X} {value : Bool} :
    Mild (.write r value) ↔ ∀ n, ¬ r.Reaches kind (.permaloc n) := by
  simp [Mild, Action.BindsBy, Action.Spares]

omit [DecidableEq X] in
@[simp] theorem mild_bind {l : Local} {v : Var X} : Mild (.bind l v) ↔ kind l v := by
  simp [Mild, Action.BindsBy, Action.Spares]

omit [DecidableEq X] in
@[simp] theorem mild_control {c : Command} : Mild (.control c : Act X) := by
  simp [Mild, Action.BindsBy, Action.Spares]

omit [DecidableEq X] in
@[simp] theorem mild_use {r : Reg X} : Mild (.use r : Act X) := by
  simp [Mild, Action.BindsBy, Action.Spares]

omit [DecidableEq X] in
@[simp] theorem reaches_slot {l : Local} {v : Var X} :
    (Register.slot l : Reg X).Reaches kind v ↔ kind l v := Iff.rfl

omit [DecidableEq X] in
@[simp] theorem reaches_var {v v' : Var X} : (Register.var v : Reg X).Reaches kind v' ↔ v = v' :=
  Iff.rfl

omit [DecidableEq X] in
@[simp] theorem leaves_bind {l l' : Local} {v : Var X} :
    (Action.bind l' v : Act X).Leaves l ↔ l' ≠ l := Iff.rfl

omit [DecidableEq X] in
@[simp] theorem leaves_write {l : Local} {r : Reg X} {value : Bool} :
    (Action.write r value : Act X).Leaves l ↔ True := Iff.rfl

omit [DecidableEq X] in
@[simp] theorem leaves_control {l : Local} {c : Command} :
    (Action.control c : Act X).Leaves l ↔ True := Iff.rfl

omit [DecidableEq X] in
@[simp] theorem leaves_use {l : Local} {r : Reg X} : (Action.use r : Act X).Leaves l ↔ True :=
  Iff.rfl

end Syntax

namespace Schedule

variable (a : Schedule X) (t : Transition X)

/-- The local variables with permaloc bits. -/
def permalocs : List Local := [currentBlockPermaloc, nextBlockPermaloc]

omit [DecidableEq X] in
theorem mild_updateRoutingloc : MildOps permalocs (updateRoutingloc t) := by
  simp [MildOps, permalocs, updateRoutingloc, kind]

omit [DecidableEq X] in
theorem mild_defCopy :
    MildOps (X := X) permalocs (defCopy currentBlockPermaloc currentBlockRoutingloc) := by
  simp [MildOps, permalocs, defCopy, kind]

omit [DecidableEq X] in
theorem mild_importRouting : MildOps permalocs (importRouting t) := by
  simp [MildOps, permalocs, importRouting, kind]

omit [DecidableEq X] in
theorem mild_testCondition : MildOps permalocs (testCondition t) := by
  simp [MildOps, permalocs, testCondition]

omit [DecidableEq X] in
theorem mild_requestPermit : MildOps permalocs (requestPermit t) := by
  unfold requestPermit
  split <;> simp [MildOps, permalocs, kind]

omit [DecidableEq X] in
theorem mild_decideToGo : MildOps permalocs (a.decideToGo t) := by
  simp [MildOps, permalocs, decideToGo, acquireLock, kind, or_imp, forall_and]

omit [DecidableEq X] in
theorem mild_greenFailed : MildOps permalocs [a.greenFailed t] := by
  simp [MildOps, permalocs, greenFailed, releaseLock, or_imp, forall_and]

end Schedule

/-! ## Moves of the train -/

/-- The permaloc bits of two states are the same. -/
def SamePermalocs (s s' : TrainState X) : Prop :=
  ∀ n, s'.bits (.permaloc n) = s.bits (.permaloc n)

/-- The permaloc bits stay, or the train moves from one location to another. -/
def Moves (source dest : String) (s s' : TrainState X) : Prop :=
  SamePermalocs s s' ∨ s.bits (.permaloc source) = true ∧
    ∀ n, s'.bits (.permaloc n) =
      if n = dest then true else if n = source then false else s.bits (.permaloc n)

/-- What mild operations keep. -/
structure Keeps (s s' : TrainState X) : Prop where
  wellBound : WellBound kind s'
  permaloc : SamePermalocs s s'
  current : s'.bound currentBlockPermaloc = s.bound currentBlockPermaloc
  next : s'.bound nextBlockPermaloc = s.bound nextBlockPermaloc

theorem Keeps.refl (h : WellBound kind s) : Keeps s s := ⟨h, fun _ => rfl, rfl, rfl⟩

theorem Keeps.trans (h : Keeps s s') (h' : Keeps s' t) : Keeps s t :=
  ⟨h'.wellBound, fun n => (h'.permaloc n).trans (h.permaloc n), h'.current.trans h.current,
    h'.next.trans h.next⟩

theorem keeps_performAll {acts : List (Act X)} (h : WellBound kind s)
    (hacts : ∀ a ∈ acts, Mild a ∧ ∀ l ∈ Schedule.permalocs, a.Leaves l)
    (hperform : performAll control s acts = some s') : Keeps s s' := by
  refine performAll_keeps (I := fun u => Keeps s u) (fun a ha u u' hu hperform => ?_) hperform
    (.refl h)
  obtain ⟨⟨hbinds, hspares⟩, hleaves⟩ := hacts a ha
  refine hu.trans ⟨hu.wellBound.perform hbinds hperform, fun n => ?_, ?_, ?_⟩
  · exact bits_perform hu.wellBound (hspares n) hperform
  · exact bound_perform (hleaves _ (by simp [Schedule.permalocs])) hperform
  · exact bound_perform (hleaves _ (by simp [Schedule.permalocs])) hperform

theorem MildOps.keeps {ops : List (TrainOp X)} (hops : MildOps Schedule.permalocs ops)
    (h : WellBound kind s) (hrun : run control s ops = some s') : Keeps s s' := by
  refine run_keeps (I := fun u => Keeps s u) (fun op hop u u' hu hexec => ?_) hrun (.refl h)
  rcases exec_cases hexec with rfl | ⟨-, hperform⟩
  · exact hu
  · exact hu.trans (keeps_performAll hu.wellBound (hops op hop) hperform)

/-- The location variables are bound for a transition. -/
structure Located (source dest : String) (s : TrainState X) : Prop where
  wellBound : WellBound kind s
  current : s.bound currentBlockPermaloc = some (.permaloc source)
  next : s.bits (.permaloc source) = true → s.bound nextBlockPermaloc = some (.permaloc dest)

variable {source dest : String}

theorem Located.keeps (h : Located source dest s) (hkeeps : Keeps s s') :
    Located source dest s' where
  wellBound := hkeeps.wellBound
  current := hkeeps.current.trans h.current
  next hsource := hkeeps.next.trans (h.next ((hkeeps.permaloc source).symm.trans hsource))

/-- A guard for the location of the current block. -/
theorem Located.permaloc_of_guard (h : Located source dest s)
    (hguard : (ifReg1 currentBlockPermaloc : If X).test control s = some true) :
    s.bits (.permaloc source) = true := by
  have htest := test_bit (m := control) (r := .slot currentBlockPermaloc) h.current true
  rw [hguard] at htest
  simpa using htest

/-- Actions that clear the permaloc of the current block and set the one of the next. -/
theorem performAll_move (pre mid post : List (Act X))
    (hacts : ∀ a ∈ pre ++ mid ++ post, Mild a ∧ ∀ l ∈ Schedule.permalocs, a.Leaves l)
    (h : WellBound kind s) (hcurrent : s.bound currentBlockPermaloc = some (.permaloc source))
    (hnext : s.bound nextBlockPermaloc = some (.permaloc dest))
    (hperform : performAll control s (pre ++ actReg0 currentBlockPermaloc ::
      (mid ++ actReg1 nextBlockPermaloc :: post)) = some s') :
    WellBound kind s' ∧ s'.bound currentBlockPermaloc = some (.permaloc source) ∧
      s'.bound nextBlockPermaloc = some (.permaloc dest) ∧
      ∀ n, s'.bits (.permaloc n) =
        if n = dest then true else if n = source then false else s.bits (.permaloc n) := by
  have hpre : ∀ a ∈ pre, Mild a ∧ ∀ l ∈ Schedule.permalocs, a.Leaves l :=
    fun a ha => hacts a (by simp [ha])
  have hmid : ∀ a ∈ mid, Mild a ∧ ∀ l ∈ Schedule.permalocs, a.Leaves l :=
    fun a ha => hacts a (by simp [ha])
  have hpost : ∀ a ∈ post, Mild a ∧ ∀ l ∈ Schedule.permalocs, a.Leaves l :=
    fun a ha => hacts a (by simp [ha])
  rw [performAll_append] at hperform
  obtain ⟨u, hu, hperform⟩ := Option.bind_eq_some_iff.mp hperform
  have hkeeps := keeps_performAll h hpre hu
  rw [performAll_write (show u.lookup (.slot currentBlockPermaloc) = _ from
    hkeeps.current.trans hcurrent), performAll_append] at hperform
  obtain ⟨v, hv, hperform⟩ := Option.bind_eq_some_iff.mp hperform
  have hwellBound : WellBound kind (u.setBit (.permaloc source) false) := hkeeps.wellBound
  have hkeeps' := keeps_performAll hwellBound hmid hv
  have hnext' : v.bound nextBlockPermaloc = some (.permaloc dest) :=
    (hkeeps'.next.trans hkeeps.next).trans hnext
  rw [performAll_write (show v.lookup (.slot nextBlockPermaloc) = _ from hnext')] at hperform
  have hwellBound' : WellBound kind (v.setBit (.permaloc dest) true) := hkeeps'.wellBound
  have hkeeps'' := keeps_performAll hwellBound' hpost hperform
  refine ⟨hkeeps''.wellBound, ?_, hkeeps''.next.trans hnext', fun n => ?_⟩
  · exact hkeeps''.current.trans ((hkeeps'.current.trans hkeeps.current).trans hcurrent)
  · rw [hkeeps''.permaloc n]
    simp only [State.setBit, Function.update_apply, Var.permaloc.injEq]
    split
    · rfl
    · rw [hkeeps'.permaloc n]
      simp only [State.setBit, Function.update_apply, Var.permaloc.injEq]
      rw [hkeeps.permaloc n]

theorem SamePermalocs.trans (h : SamePermalocs s s') (h' : SamePermalocs s' t) :
    SamePermalocs s t := fun n => (h' n).trans (h n)

/-- A move with states of the same permaloc bits before and after. -/
theorem Moves.between {u v : TrainState X} (h : Moves source dest u v)
    (hbefore : SamePermalocs s u) (hafter : SamePermalocs v t) : Moves source dest s t := by
  rcases h with hsame | ⟨hsource, hmove⟩
  · exact .inl ((hbefore.trans hsame).trans hafter)
  · refine .inr ⟨(hbefore source).symm.trans hsource, fun n => ?_⟩
    rw [hafter n, hmove n, hbefore n]

/-- Of the locations, exactly one has the train. -/
def OneTrain (locations : List String) (s : TrainState X) : Prop :=
  ∃ n ∈ locations, s.bits (.permaloc n) = true ∧
    ∀ n' ∈ locations, s.bits (.permaloc n') = true → n' = n

theorem OneTrain.same {locations : List String} (h : OneTrain locations s)
    (hsame : SamePermalocs s t) : OneTrain locations t := by
  obtain ⟨n, hn, htrain, hone⟩ := h
  exact ⟨n, hn, (hsame n).trans htrain, fun n' hn' hset => hone n' hn' ((hsame n').symm.trans hset)⟩

theorem OneTrain.moves {locations : List String} (h : OneTrain locations s)
    (hsource : source ∈ locations) (hdest : dest ∈ locations) (hmoves : Moves source dest s t) :
    OneTrain locations t := by
  rcases hmoves with hsame | ⟨hset, hmove⟩
  · exact h.same hsame
  · obtain ⟨n, hn, htrain, hone⟩ := h
    refine ⟨dest, hdest, by rw [hmove, if_pos rfl], fun n' hn' hset' => ?_⟩
    by_contra hne
    rw [hmove, if_neg hne] at hset'
    split at hset'
    · cases hset'
    · next hns => exact hns ((hone n' hn' hset').trans (hone source hsource hset).symm)

namespace Schedule

variable (a : Schedule X) (t : Transition X)

/-! ## Transitions -/

theorem run_mapCurrentBlockPermaloc (s : TrainState X) (source : SignalBlock X) :
    run control s (mapCurrentBlockPermaloc source) =
      some ((s.bind currentBlockPermaloc (.permaloc source.name)).bind currentBlockRoutingloc
        (.routingloc source.name)) := rfl

theorem wellBound_bind {l : Local} {v : Var X} (h : WellBound kind s) (hkind : kind l v) :
    WellBound kind (s.bind l v) :=
  h.perform (m := control) (a := .bind l v) hkind rfl

/-- The location variables of the current block. -/
theorem mapCurrentBlockPermaloc_keeps (h : WellBound kind s) (source : SignalBlock X)
    (hrun : run control s (mapCurrentBlockPermaloc source) = some s') :
    WellBound kind s' ∧ SamePermalocs s s' ∧
      s'.bound currentBlockPermaloc = some (.permaloc source.name) := by
  rw [run_mapCurrentBlockPermaloc] at hrun
  obtain rfl := Option.some.inj hrun
  exact ⟨wellBound_bind (wellBound_bind h ⟨_, rfl⟩) ⟨_, rfl⟩, fun _ => rfl, rfl⟩

omit [DecidableEq X] in
theorem mild_importCurrent : MildOps permalocs
    (maybe (a.importsDirection t) ⟨[], [actImportVariable (.helper t.key) currentDirection]⟩ ++
      [⟨[], [actImportVariable (.layout t.dest.autoBlocked) nextBlockBlocked]⟩,
        ⟨[ifReg1 currentBlockPermaloc],
          [actImportVariable (.layout t.source.routeOut) permaBlockRouteOut,
            actImportVariable (.layout t.source.srcDetector) currentBlockDetector]⟩]) := by
  simp [MildOps, permalocs, kind, or_imp, forall_and]

theorem exec_importNextPermaloc
    (h : s.bound currentBlockPermaloc = some (.permaloc t.source.name)) :
    (importNextPermaloc t).exec control s =
      some (if s.bits (.permaloc t.source.name) then
        s.bind nextBlockPermaloc (.permaloc t.dest.name) else s) := by
  have htest := test_bit (m := control) (r := .slot currentBlockPermaloc) h true
  cases hbit : s.bits (.permaloc t.source.name) with
  | false =>
    rw [hbit] at htest
    exact exec_skip_first htest _ _
  | true =>
    rw [hbit] at htest
    have hall : testAll control s (importNextPermaloc t).guards = some true :=
      (testAll_cons_true htest).trans rfl
    rw [exec_of_testAll hall]
    rfl

/-- The imports for the block leave the location variables bound. -/
theorem located_imports {u v : TrainState X} (h : WellBound kind s)
    (hcurrent : run control s (a.importCurrent t) = some u)
    (hupdate : run control u (if t.eager then updateRoutingloc t
      else defCopy currentBlockPermaloc currentBlockRoutingloc) = some v)
    (hnext : run control v [importNextPermaloc t] = some s') :
    Located t.source.name t.dest.name s' ∧ SamePermalocs s s' := by
  rw [importCurrent, List.append_assoc] at hcurrent
  obtain ⟨w, hmap, hrest⟩ := run_append_eq_some.mp hcurrent
  obtain ⟨hwellBound, hsame, hbound⟩ := mapCurrentBlockPermaloc_keeps h t.source hmap
  have hkeeps := (mild_importCurrent a t).keeps hwellBound hrest
  have hkeeps' : Keeps u v := by
    split at hupdate
    · exact (mild_updateRoutingloc t).keeps hkeeps.wellBound hupdate
    · exact mild_defCopy.keeps hkeeps.wellBound hupdate
  have hv := hkeeps'.current.trans (hkeeps.current.trans hbound)
  rw [run_singleton, exec_importNextPermaloc t hv] at hnext
  obtain rfl := Option.some.inj hnext
  have hsame' : SamePermalocs s v := (hsame.trans hkeeps.permaloc).trans hkeeps'.permaloc
  split
  · exact ⟨⟨wellBound_bind hkeeps'.wellBound ⟨_, rfl⟩, hv, fun _ => rfl⟩, hsame'⟩
  · next hbit => exact ⟨⟨hkeeps'.wellBound, hv, fun hset => absurd hset hbit⟩, hsame'⟩

/-- An operation that moves the train, if the permaloc of the current block is set. -/
theorem exec_move {op : TrainOp X} (pre mid post : List (Act X))
    (hguard : ifReg1 currentBlockPermaloc ∈ op.guards)
    (heq : op.actions = pre ++ actReg0 currentBlockPermaloc ::
      (mid ++ actReg1 nextBlockPermaloc :: post))
    (hacts : ∀ a ∈ pre ++ mid ++ post, Mild a ∧ ∀ l ∈ permalocs, a.Leaves l)
    (h : Located source dest s) (hexec : op.exec control s = some s') :
    Located source dest s' ∧ Moves source dest s s' := by
  rcases exec_cases hexec with rfl | ⟨hguards, hperform⟩
  · exact ⟨h, .inl fun _ => rfl⟩
  · have hsource := h.permaloc_of_guard (hguards _ hguard)
    rw [heq] at hperform
    obtain ⟨hwellBound, hcurrent, hnext, hbits⟩ :=
      performAll_move pre mid post hacts h.wellBound h.current (h.next hsource) hperform
    exact ⟨⟨hwellBound, hcurrent, fun _ => hnext⟩, .inr ⟨hsource, hbits⟩⟩

theorem exec_advancePermaloc (h : Located t.source.name t.dest.name s)
    (hexec : (a.advancePermaloc t).exec control s = some s') :
    Located t.source.name t.dest.name s' ∧ Moves t.source.name t.dest.name s s' := by
  refine exec_move []
    (maybe (a.respectDirection t.source.name) (actReg currentDirection false))
    [actImportVariable (.layout t.dest.dstDetector) currentBlockDetector] ?_ ?_ ?_ h hexec
  · simp [advancePermaloc]
  · simp [advancePermaloc]
  · simp [permalocs, kind, or_imp, forall_and]

theorem exec_requestTransition (h : Located t.source.name t.dest.name s)
    (hexec : (a.requestTransition t).exec control s = some s') :
    WellBound kind s' ∧ Moves t.source.name t.dest.name s s' := by
  cases heager : t.eager with
  | true =>
    have hmild : MildOps permalocs [a.requestTransition t] := by
      simp [MildOps, permalocs, requestTransition, releaseLock, heager, kind, or_imp, forall_and]
    have hkeeps := hmild.keeps h.wellBound ((run_singleton _).trans hexec)
    exact ⟨hkeeps.wellBound, .inl hkeeps.permaloc⟩
  | false =>
    have hmove := exec_move (releaseLock t.lock) [actReg0 currentBlockRoutingloc]
      (actReg1 nextBlockRoutingloc :: (maybe (a.respectDirection t.source.name)
        (actReg currentDirection false) ++ [actState stTransitionDone])) (by
          simp [requestTransition, goesBy, heager]) (by
          simp [requestTransition, heager, maybe]) (by
          simp [permalocs, releaseLock, kind, or_imp, forall_and]) h hexec
    exact ⟨hmove.1.wellBound, hmove.2⟩

/-- A transition moves the train from its source to its destination, or not at all. -/
theorem transition_moves (h : WellBound kind s)
    (hrun : run control s (a.addBlockTransitionOnPermit t) = some s') :
    WellBound kind s' ∧ Moves t.source.name t.dest.name s s' := by
  rw [addBlockTransitionOnPermit] at hrun
  obtain ⟨s₈, hrun, hlast⟩ := run_append_eq_some.mp hrun
  obtain ⟨s₇, hrun, hdecide⟩ := run_append_eq_some.mp hrun
  obtain ⟨s₆, hrun, hrequest⟩ := run_append_eq_some.mp hrun
  obtain ⟨s₅, hrun, htest⟩ := run_append_eq_some.mp hrun
  obtain ⟨s₄, hrun, hrouting⟩ := run_append_eq_some.mp hrun
  obtain ⟨s₃, hrun, hadvance⟩ := run_append_eq_some.mp hrun
  obtain ⟨s₂, hrun, hnext⟩ := run_append_eq_some.mp hrun
  obtain ⟨s₁, hcurrent, hupdate⟩ := run_append_eq_some.mp hrun
  obtain ⟨hlocated, hsame⟩ := located_imports a t h hcurrent hupdate hnext
  obtain ⟨s₉, htransition, hfailed⟩ := run_cons_eq_some.mp hlast
  -- What stands between the step of an eager transition and the one at the end.
  have hkeeps : ∀ u, Located t.source.name t.dest.name u → s₄ = u → Keeps u s₈ := by
    rintro u hu rfl
    have h₅ := (mild_importRouting t).keeps hu.wellBound hrouting
    have h₆ := (mild_testCondition t).keeps h₅.wellBound htest
    have h₇ := (mild_requestPermit t).keeps h₆.wellBound hrequest
    have h₈ := (mild_decideToGo a t).keeps h₇.wellBound hdecide
    exact ((h₅.trans h₆).trans h₇).trans h₈
  cases heager : t.eager with
  | true =>
    rw [heager] at hadvance
    have hexec := (run_singleton _).symm.trans hadvance
    obtain ⟨hlocated', hmoves⟩ := exec_advancePermaloc a t hlocated hexec
    have hmiddle := hkeeps s₄ hlocated' rfl
    have hmild : MildOps permalocs [a.requestTransition t, a.greenFailed t] := by
      simp [MildOps, permalocs, requestTransition, greenFailed, releaseLock, heager, kind, or_imp,
        forall_and]
    have hend := hmild.keeps hmiddle.wellBound hlast
    exact ⟨hend.wellBound, hmoves.between hsame (hmiddle.permaloc.trans hend.permaloc)⟩
  | false =>
    rw [heager] at hadvance
    obtain rfl := Option.some.inj hadvance
    have hmiddle := hkeeps s₃ hlocated rfl
    obtain ⟨hwellBound, hmoves⟩ :=
      exec_requestTransition a t (hlocated.keeps hmiddle) htransition
    have hend := (mild_greenFailed a t).keeps hwellBound hfailed
    exact ⟨hend.wellBound, hmoves.between (hsame.trans hmiddle.permaloc) hend.permaloc⟩

/-! ## Runs -/

omit [DecidableEq X] in
/-- The calls that are placed are those of the body. -/
theorem mem_of_place {current : Option (Call X)} {body : List (Call X)} {calls : List (Placed X)}
    (h : place current body = some calls) {p : Placed X} (hp : p ∈ calls) : p.call ∈ body := by
  induction body generalizing current calls with
  | nil =>
    cases h
    cases hp
  | cons call rest ih =>
    have hcons : ∀ current' first, first.call = call →
        ((place current' rest).bind fun calls => some (first :: calls)) = some calls →
        p.call ∈ call :: rest := by
      intro current' first hfirst hbind
      obtain ⟨others, hothers, heq⟩ := Option.bind_eq_some_iff.mp hbind
      obtain rfl := Option.some.inj heq
      rcases List.mem_cons.mp hp with rfl | hp
      · exact hfirst ▸ List.mem_cons_self
      · exact List.mem_cons_of_mem _ (ih hothers hp)
    cases call with
    | switchTurnout magnet desiredState =>
      obtain ⟨current', -, hbind⟩ := Option.bind_eq_some_iff.mp h
      exact hcons (some current') _ rfl hbind
    | transition t => exact hcons (some (.transition t)) _ rfl h
    | stopTrainAt dest => exact hcons (some (.stopTrainAt dest)) _ rfl h
    | stopAndReverseAtStub inSignal => exact hcons (some (.stopAndReverseAtStub inSignal)) _ rfl h

/-- Behind the location variables, a call that is no transition does not touch permaloc bits. -/
theorem mapped_same (source : SignalBlock X) {ops : List (TrainOp X)}
    (hops : MildOps permalocs ops) (h : WellBound kind s)
    (hrun : run control s (mapCurrentBlockPermaloc source ++ ops) = some s') :
    WellBound kind s' ∧ SamePermalocs s s' := by
  obtain ⟨u, hmap, hrest⟩ := run_append_eq_some.mp hrun
  obtain ⟨hwellBound, hsame, -⟩ := mapCurrentBlockPermaloc_keeps h source hmap
  have hkeeps := hops.keeps hwellBound hrest
  exact ⟨hkeeps.wellBound, hsame.trans hkeeps.permaloc⟩

omit [DecidableEq X] in
theorem mild_switchTurnout (location : String) (magnet : Magnet X) (desiredState : Bool) :
    MildOps permalocs (a.switchTurnout location magnet desiredState) := by
  simp [MildOps, permalocs, switchTurnout, kind]

omit [DecidableEq X] in
theorem mild_afterTransition : MildOps permalocs a.afterTransition := by
  refine ((MildOps.append ?_ ?_).append ?_).append ?_
  · simp [MildOps, permalocs, handleBaseStates, kind, or_imp, forall_and]
  · unfold sendTrainCommands
    split <;> simp [MildOps, permalocs]
  · simp [MildOps, permalocs, handleInit]
  · simp [MildOps, permalocs, handleInitState]

/-- A call keeps the train. -/
theorem render_oneTrain {p : Placed X} (hp : p.call ∈ a.body)
    (h : WellBound kind s ∧ OneTrain a.locations s) (hrun : run control s (a.render p) = some s') :
    WellBound kind s' ∧ OneTrain a.locations s' := by
  have hlocation : ∀ name ∈ p.call.locations, name ∈ a.locations := fun name hname =>
    List.mem_flatMap.mpr ⟨p.call, hp, hname⟩
  have hstay : ∀ {u : TrainState X}, WellBound kind u ∧ SamePermalocs s u →
      WellBound kind u ∧ OneTrain a.locations u := by
    rintro u ⟨hwellBound, hsame⟩
    exact ⟨hwellBound, h.2.same hsame⟩
  unfold render at hrun
  split at hrun
  · next t ht =>
    obtain ⟨hwellBound, hmoves⟩ := a.transition_moves t h.1 hrun
    exact ⟨hwellBound, h.2.moves (hlocation _ (by simp [ht, Call.locations]))
      (hlocation _ (by simp [ht, Call.locations])) hmoves⟩
  · next dest hdest =>
    refine hstay (mapped_same dest ?_ h.1 hrun)
    simp [MildOps, permalocs, kind]
  · next inSignal hinSignal =>
    refine hstay (mapped_same inSignal ?_ h.1 hrun)
    simp [MildOps, permalocs, kind]
  · next magnet desiredState hturnout =>
    split at hrun
    · next location hlocation =>
      have hkeeps := (a.mild_switchTurnout location magnet desiredState).keeps h.1 hrun
      exact hstay ⟨hkeeps.wellBound, hkeeps.permaloc⟩
    · cases hrun
      exact h

/-- From every state, a run of a schedule keeps the train: if exactly one permaloc bit is set
before, exactly one is set after it. -/
theorem one_train_after_run {calls : List (Placed X)} (hplace : place none a.body = some calls)
    (hone : OneTrain a.locations s) (hrun : a.runOnce calls s = some s') :
    OneTrain a.locations s' := by
  obtain ⟨u, hcalls, hafter⟩ := run_append_eq_some.mp hrun
  have hreset : WellBound kind { s with bound := fun _ => none } := fun _ _ h => by cases h
  obtain ⟨hwellBound, hone'⟩ := run_flatMap_keeps
    (I := fun u => WellBound kind u ∧ OneTrain a.locations u)
    (fun p hp _ _ hu hrun => a.render_oneTrain (mem_of_place hplace hp) hu hrun) hcalls
    ⟨hreset, hone⟩
  have hkeeps := a.mild_afterTransition.keeps hwellBound hafter
  exact hone'.same hkeeps.permaloc

/-! ### Three blocks -/

/-- A block with its own variables. -/
def numberedBlock (name : String) (n : Nat) : SignalBlock Nat :=
  ⟨name, 8 * n, 8 * n, 8 * n + 1, 8 * n + 2, 8 * n + 3, 8 * n + 4⟩

def blockA : SignalBlock Nat := numberedBlock "A" 1
def blockB : SignalBlock Nat := numberedBlock "B" 2
def blockC : SignalBlock Nat := numberedBlock "C" 3

/-- From the first block to the second, on a route that is set ahead, and on to the third. -/
def threeBlocks : Schedule Nat where
  body := [.transition (addDirectBlockTransition blockA blockB [] true),
    .transition (addDirectBlockTransition blockB blockC [] false), .stopTrainAt blockC]
  trainNodeId := 0x060100001384
  speedVar := none
  resetRoutes := none

/-- The train is moving at the end of the first block, with its route. -/
def movingTrain : TrainState Nat where
  control := ⟨UInt8.ofNat stWaiting, 0⟩
  bits v := v == .permaloc "A" || v == .isMoving || v == .layout blockA.srcDetector ||
    v == .layout blockA.routeOut
  bound _ := none

theorem threeBlocks_one_train : ∃ calls s', place none threeBlocks.body = some calls ∧
    threeBlocks.runOnce calls movingTrain = some s' ∧ OneTrain threeBlocks.locations s' ∧
    s'.bits (.permaloc "B") = true := by
  have hrun : ((place none threeBlocks.body).bind fun calls =>
      (threeBlocks.runOnce calls movingTrain).map fun s => s.bits (.permaloc "B")) =
        some true := by decide
  obtain ⟨calls, hplace, hrun⟩ := Option.bind_eq_some_iff.mp hrun
  obtain ⟨s', hrun, hset⟩ := Option.map_eq_some_iff.mp hrun
  have hone : OneTrain threeBlocks.locations movingTrain := by
    refine ⟨"A", ?_, ?_, ?_⟩ <;> decide
  exact ⟨calls, s', hplace, hrun, one_train_after_run threeBlocks hplace hone hrun, hset⟩

end Schedule

end OpenmrnCue.TrainSchedule
