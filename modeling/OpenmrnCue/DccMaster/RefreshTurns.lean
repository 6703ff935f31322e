import OpenmrnCue.DccMaster.Steps
import OpenmrnCue.Library.Rotation

/-! The turns of the refresh.  The place of the refresh in the table and the flags of the
locomotives stand for a queue of all locomotives with an address, in which each has a turn for its
speed and then one for its functions, whatever else the master does in between. -/

namespace OpenmrnCue.DccMaster

open Conformance Rotation

/-! ### The search for the next locomotive -/

/-- The place in the table behind `id`. -/
def nextPlace (id : Nat) : Nat := (id + 1) % dccNumLoco

/-- Where the search starts that comes after `last`. -/
def startPlace (last : Byte) : Nat := if dccNumLoco ≤ (last + 1).toNat then 0 else (last + 1).toNat

theorem startPlace_lt (last : Byte) : startPlace last < dccNumLoco := by
  unfold startPlace
  split
  · decide
  · omega

/-- The round of the loop that looks at the next place. -/
theorem nextLoco_place (last : Byte) :
    (if dccNumLoco ≤ (last + 1).toNat then (0 : Byte) else last + 1).toNat = startPlace last := by
  rw [startPlace, apply_ite BitVec.toNat]
  rfl

theorem startPlace_of_lt {last : Byte} (h : last.toNat < dccNumLoco) :
    startPlace last = nextPlace last.toNat := by
  have hlast : (last + 1).toNat = last.toNat + 1 := by
    rw [BitVec.toNat_add]
    simp only [dccNumLoco] at h
    exact Nat.mod_eq_of_lt (by change last.toNat + 1 < 256; omega)
  rw [startPlace, nextPlace, hlast]
  by_cases hend : dccNumLoco ≤ last.toNat + 1
  · have hround : last.toNat + 1 = dccNumLoco := by omega
    rw [if_pos hend, hround, Nat.mod_self]
  · rw [if_neg hend, Nat.mod_eq_of_lt (Nat.not_le.mp hend)]

theorem startPlace_pred {last : Byte} (h : last.toNat < dccNumLoco) :
    startPlace (last - 1) = last.toNat := by
  rw [startPlace, BitVec.sub_add_cancel, if_neg (Nat.not_le.mpr h)]

theorem iterate_nextPlace {id : Nat} (h : id < dccNumLoco) (k : Nat) :
    nextPlace^[k] id = (id + k) % dccNumLoco := by
  induction k with
  | zero => exact (Nat.mod_eq_of_lt h).symm
  | succ k ih => rw [Function.iterate_succ_apply', ih, nextPlace, Nat.mod_add_mod, Nat.add_assoc]

theorem nextPlace_round {id : Nat} (h : id < dccNumLoco) : nextPlace^[dccNumLoco] id = id := by
  rw [iterate_nextPlace h, Nat.add_mod_right, Nat.mod_eq_of_lt h]

namespace Master

/-- Whether a locomotive has an address. -/
def isKnown (m : Master) (id : Nat) : Bool := (m.known id).isSome

/-- The search ends at the first locomotive with an address, or comes round. -/
theorem nextLoco_cases (m : Master) (tries : Nat) (last : Byte) :
    found nextPlace m.isKnown tries (startPlace last) = [] ∧
        (m.nextLoco tries last).2 = none ∧
        startPlace (m.nextLoco tries last).1 = nextPlace^[tries] (startPlace last) ∨
      ∃ place l rest, found nextPlace m.isKnown tries (startPlace last) = place.toNat :: rest ∧
        m.known place.toNat = some l ∧ place.toNat < dccNumLoco ∧
        m.nextLoco tries last = (place, some l) := by
  induction tries generalizing last with
  | zero => exact .inl ⟨rfl, rfl, rfl⟩
  | succ tries ih =>
    have hplace := nextLoco_place last
    have hlt := startPlace_lt last
    unfold nextLoco
    dsimp only
    generalize (if dccNumLoco ≤ (last + 1).toNat then (0 : Byte) else last + 1) = place
      at hplace ⊢
    have hsplit : found nextPlace m.isKnown (tries + 1) (startPlace last) =
        List.filter m.isKnown (place.toNat :: List.iterate nextPlace (startPlace place) tries) := by
      rw [found, List.iterate, ← hplace, startPlace_of_lt (hplace ▸ hlt)]
    cases hknown : m.known place.toNat with
    | none =>
      have hnot : m.isKnown place.toNat = false := by rw [isKnown, hknown]; rfl
      rw [hsplit, List.filter_cons_of_neg (by rw [hnot]; decide)]
      have hround : nextPlace^[tries] (startPlace place) =
          nextPlace^[tries + 1] (startPlace last) := by
        rw [startPlace_of_lt (hplace ▸ hlt), hplace]
        rfl
      rw [← hround]
      exact ih place
    | some l =>
      have his : m.isKnown place.toNat = true := by rw [isKnown, hknown]; rfl
      rw [hsplit, List.filter_cons_of_pos his]
      exact .inr ⟨place, l, _, rfl, hknown, hplace ▸ hlt, rfl⟩

end Master

/-! ### The queue that the table stands for -/

/-- A turn, for the speed first. -/
def Event.asTurn : Event → Option (Nat × Bool)
  | .turn id speed => some (id, !speed)
  | _ => none

/-- The turns of a log. -/
def turnsOf (events : List Event) : List (Nat × Bool) := events.filterMap Event.asTurn

/-- The table of a master stands for the turns to come. -/
structure Refreshes (m : Master) (t : Turns Nat) : Prop where
  queue : found nextPlace m.isKnown dccNumLoco (startPlace m.lastLocoId) = t.queue
  atSpeed : ∀ id l, m.known id = some l → id < dccNumLoco →
    (l.loopAtSpeed = false ↔ t.second = true ∧ t.queue.head? = some id)

theorem known_of_turnPart {m m' : Master}
    (h : m'.locos.map Loco.turnPart = m.locos.map Loco.turnPart) {id : Nat} {l' : Loco}
    (hl' : m'.known id = some l') :
    ∃ l, m.known id = some l ∧ l.loopAtSpeed = l'.loopAtSpeed := by
  obtain ⟨hid', haddress⟩ := Master.known_eq_some hl'
  have hparts : (m.locos.map Loco.turnPart)[id]? = some l'.turnPart := by
    rw [← h, List.getElem?_map, hid']
    rfl
  rw [List.getElem?_map] at hparts
  obtain ⟨l, hid, hpart⟩ := Option.map_eq_some_iff.mp hparts
  simp only [Loco.turnPart, Prod.mk.injEq] at hpart
  refine ⟨l, ?_, hpart.2.1⟩
  have hknown : decide (l.address ≠ 0) = true := by
    rw [hpart.1]
    exact decide_eq_true haddress
  rw [Master.known, hid, Option.filter_some, if_pos hknown]

theorem isKnown_of_turnPart {m m' : Master}
    (h : m'.locos.map Loco.turnPart = m.locos.map Loco.turnPart) : m'.isKnown = m.isKnown := by
  funext id
  rw [Bool.eq_iff_iff, Master.isKnown, Master.isKnown, Option.isSome_iff_exists,
    Option.isSome_iff_exists]
  constructor
  · rintro ⟨l', hl'⟩
    obtain ⟨l, hl, -⟩ := known_of_turnPart h hl'
    exact ⟨l, hl⟩
  · rintro ⟨l, hl⟩
    obtain ⟨l', hl', -⟩ := known_of_turnPart h.symm hl
    exact ⟨l', hl'⟩

/-- Only the place of the refresh matters, and of the locomotives what `turnPart` tells. -/
theorem Refreshes.congr {m m' : Master} {t : Turns Nat} (h : Refreshes m t)
    (hlast : m'.lastLocoId = m.lastLocoId)
    (hlocos : m'.locos.map Loco.turnPart = m.locos.map Loco.turnPart) : Refreshes m' t := by
  refine ⟨?_, fun id l' hl' hid => ?_⟩
  · rw [hlast, isKnown_of_turnPart hlocos]
    exact h.queue
  · obtain ⟨l, hl, hflag⟩ := known_of_turnPart hlocos hl'
    rw [← hflag]
    exact h.atSpeed id l hl hid

/-! ### A step of the refresh -/

section Refresh

variable {m : Master} {t : Turns Nat}

/-- The locomotive that had its turn, with its new flag. -/
theorem known_setLoco {m : Master} {place : Nat} {l l' : Loco} (hl : m.known place = some l)
    (haddress : l'.address = l.address) (id : Nat) :
    (m.setLoco place l').known id = if id = place then some l' else m.known id := by
  obtain ⟨hplace, hnonzero⟩ := Master.known_eq_some hl
  have hlt : place < m.locos.length := (List.getElem?_eq_some_iff.mp hplace).1
  rw [Master.known, Master.setLoco, List.getElem?_set]
  by_cases hid : id = place
  · subst hid
    rw [if_pos rfl, if_pos rfl, if_pos hlt, Option.filter_some,
      if_pos (by rw [haddress]; exact decide_eq_true hnonzero)]
  · rw [if_neg hid, if_neg (Ne.symm hid)]
    rfl

theorem isKnown_setLoco {place : Nat} {l l' : Loco} (hl : m.known place = some l)
    (haddress : l'.address = l.address) : (m.setLoco place l').isKnown = m.isKnown := by
  funext id
  rw [Master.isKnown, known_setLoco hl haddress]
  split
  · next hid => rw [Master.isKnown, hid, hl]; rfl
  · rfl

/-- The turn of a locomotive moves the queue on. -/
theorem Refreshes.next (h : Refreshes m t) {place : Byte} {l l' : Loco} {rest : List Nat}
    (hfound : found nextPlace m.isKnown dccNumLoco (startPlace m.lastLocoId) =
      place.toNat :: rest)
    (hl : m.known place.toNat = some l) (hplace : place.toNat < dccNumLoco)
    (haddress : l'.address = l.address) (hflag : l'.loopAtSpeed = !l.loopAtSpeed) {m' : Master}
    (hlast : m'.lastLocoId = if l.loopAtSpeed then place - 1 else place)
    (hlocos : m'.locos = (m.setLoco place.toNat l').locos) :
    ∃ u, t.next = some ((place.toNat, !l.loopAtSpeed), u) ∧ Refreshes m' u := by
  have hqueue : t.queue = place.toNat :: rest := h.queue.symm.trans hfound
  have hsecond : t.second = !l.loopAtSpeed := by
    have hiff := h.atSpeed place.toNat l hl hplace
    rw [hqueue, List.head?_cons] at hiff
    cases hat : l.loopAtSpeed with
    | false => exact (hiff.mp hat).1
    | true =>
      rw [hat] at hiff
      exact Bool.eq_false_iff.mpr fun hs => by cases hiff.mpr ⟨hs, rfl⟩
  have hround := nextPlace_round (startPlace_lt m.lastLocoId)
  obtain ⟨hfrom, hbehind⟩ := found_from_head hround hfound
  have hknown : ∀ id, m'.known id = (m.setLoco place.toNat l').known id := fun id => by
    rw [Master.known, hlocos]
    rfl
  have hisKnown : m'.isKnown = m.isKnown := by
    rw [← isKnown_setLoco hl haddress]
    funext id
    rw [Master.isKnown, hknown]
    rfl
  refine ⟨_, by rw [Turns.next, hqueue, List.head?_cons, Option.map_some, hsecond], ?_, ?_⟩
  · rw [hisKnown, hlast]
    cases hat : l.loopAtSpeed with
    | true =>
      rw [if_pos rfl, startPlace_pred hplace, hfrom]
      rfl
    | false =>
      rw [if_neg Bool.false_ne_true, startPlace_of_lt hplace, hbehind, Bool.not_false, if_pos rfl,
        List.rotate_cons_succ, List.rotate_zero]
  · intro id l'' hl'' hid
    rw [hknown, known_setLoco hl haddress] at hl''
    split at hl''
    · next heq =>
      cases hl''
      rw [hflag, heq]
      cases l.loopAtSpeed <;> simp
    · next hne =>
      have hold := h.atSpeed id l'' hl'' hid
      rw [hqueue, List.head?_cons, Option.some_inj] at hold
      have hother : l''.loopAtSpeed ≠ false := fun hfalse => hne (hold.mp hfalse).2.symm
      cases l.loopAtSpeed with
      | true => simp [hother, Ne.symm hne]
      | false => simp [hother]

end Refresh

/-! ### Runs -/

/-- A step takes the turns that come next, and the table stands for those behind them. -/
def Proceeds (m : Master) (r : Master × List Event) : Prop :=
  Conforms (Hide Event.asTurn Turns.Step) Refreshes m r

/-- A step without a turn. -/
theorem proceeds_of_same {m m' : Master} {events : List Event}
    (hlast : m'.lastLocoId = m.lastLocoId)
    (hlocos : m'.locos.map Loco.turnPart = m.locos.map Loco.turnPart)
    (hturns : turnsOf events = []) : Proceeds m (m', events) := by
  refine conforms_of_same (fun t ht => ht.congr hlast hlocos) fun t _ e he => ?_
  rw [Hide, List.filterMap_eq_nil_iff.mp hturns e he]

theorem turnsOf_quiet {events : List Event} (h : ∀ e ∈ events, e.isQuiet = true) :
    turnsOf events = [] := by
  refine List.filterMap_eq_nil_iff.mpr fun e he => ?_
  cases e with
  | received p => rfl
  | sent p => rfl
  | turn id speed => cases h _ he

theorem Master.Calm.proceeds {m : Master} {r : Master × List Event} (h : m.Calm r) :
    Proceeds m r :=
  proceeds_of_same (by rw [h.rest]) h.locos (turnsOf_quiet h.quiet)

theorem turnPart_sendDccLocoSpeedPacket (l : Loco) (prio : Bool) :
    (sendDccLocoSpeedPacket l prio).1.turnPart = l.turnPart := by
  unfold sendDccLocoSpeedPacket
  split
  · dsimp only
    split <;> rfl
  · dsimp only
    split
    · rfl
    · split <;> rfl

theorem sendPriority_locos (m : Master) (first : Prio) (rest : List Prio) :
    (m.sendPriority first rest).1.locos.map Loco.turnPart = m.locos.map Loco.turnPart := by
  unfold Master.sendPriority
  dsimp only
  split
  · rfl
  · next l hl =>
    have hknown : m.known first.id.toNat = some l := hl
    split
    · exact (Master.calm_setLoco (Master.known_eq_some hknown).1
        (turnPart_sendDccLocoSpeedPacket l true) Master.quiet_nil).locos
    · split <;> rfl

/-- A command that waited has no turn. -/
theorem sendPriority_proceeds (m : Master) (first : Prio) (rest : List Prio) :
    Proceeds m (m.sendPriority first rest) := by
  have hlocos := sendPriority_locos m first rest
  have hrest : (m.sendPriority first rest).1.lastLocoId = m.lastLocoId ∧
      turnsOf (m.sendPriority first rest).2 = [] := by
    unfold Master.sendPriority
    dsimp only
    split
    · exact ⟨rfl, rfl⟩
    · split
      · exact ⟨rfl, rfl⟩
      · split <;> exact ⟨rfl, rfl⟩
  exact proceeds_of_same hrest.1 hlocos hrest.2

/-- The refresh takes the next turn, if there is a locomotive. -/
theorem refresh_proceeds {m : Master} {t : Turns Nat} (h : Refreshes m t) :
    ∃ u, Steps Turns.Step t (turnsOf m.refresh.2) u ∧ Refreshes m.refresh.1 u ∧
      (t.queue ≠ [] → (turnsOf m.refresh.2).length = 1) := by
  rcases m.nextLoco_cases dccNumLoco m.lastLocoId with ⟨hnone, hend, hround⟩ |
    ⟨place, l, rest, hfound, hl, hplace, hnext⟩
  · have hrefresh : m.refresh =
        ({ m with lastLocoId := (m.nextLoco dccNumLoco m.lastLocoId).1 }, []) := by
      unfold Master.refresh
      generalize m.nextLoco dccNumLoco m.lastLocoId = r at hend
      obtain ⟨last, found⟩ := r
      cases hend
      rfl
    rw [hrefresh]
    refine ⟨t, .nil t, ⟨?_, h.atSpeed⟩, fun hqueue => absurd (h.queue.symm.trans hnone) hqueue⟩
    dsimp only
    rw [hround, nextPlace_round (startPlace_lt _)]
    exact h.queue
  · have hstep : ∃ l' : Loco, l'.address = l.address ∧ l'.loopAtSpeed = !l.loopAtSpeed ∧
        turnsOf m.refresh.2 = [(place.toNat, !l.loopAtSpeed)] ∧
        m.refresh.1.lastLocoId = (if l.loopAtSpeed then place - 1 else place) ∧
        m.refresh.1.locos = (m.setLoco place.toNat l').locos := by
      unfold Master.refresh
      rw [hnext]
      dsimp only
      cases hat : l.loopAtSpeed with
      | true =>
        rw [if_pos rfl]
        refine ⟨_, ?_, rfl, rfl, rfl, rfl⟩
        exact congrArg Prod.fst (turnPart_sendDccLocoSpeedPacket l false)
      | false =>
        rw [if_neg Bool.false_ne_true]
        refine ⟨{ l with loopPosition := Master.nextPosition l, loopAtSpeed := true }, rfl, rfl, ?_⟩
        split <;> exact ⟨rfl, rfl, rfl⟩
    obtain ⟨l', haddress, hflag, hturns, hlast, hlocos⟩ := hstep
    obtain ⟨u, hu, hrefreshes⟩ := h.next hfound hl hplace haddress hflag hlast hlocos
    rw [hturns]
    exact ⟨u, .single hu, hrefreshes, fun _ => rfl⟩

theorem processLoop_proceeds (m : Master) : Proceeds m m.processLoop := by
  unfold Master.processLoop
  split
  · split
    · exact sendPriority_proceeds m _ _
    · intro t ht
      obtain ⟨u, hsteps, hu, -⟩ := refresh_proceeds ht
      exact ⟨u, steps_hide.mpr hsteps, hu⟩
  · exact proceeds_of_same rfl rfl rfl

theorem proceeds_of_sent {m : Master} {r : Master × List Event} (hsame : m.SameLocos r.1)
    (hsent : ∀ e ∈ r.2, ∃ p, e = .sent p) : Proceeds m r := by
  refine proceeds_of_same hsame.lastLocoId (by rw [hsame.locos])
    (List.filterMap_eq_nil_iff.mpr fun e he => ?_)
  obtain ⟨p, rfl⟩ := hsent e he
  rfl

theorem parts_proceed :
    Master.Parts (Hide Event.asTurn Turns.Step) Refreshes fun _ => Refreshes where
  hear m p := by
    have hreceived : Proceeds m (m, [.received p]) := proceeds_of_same rfl rfl rfl
    obtain ⟨hsame, hquiet⟩ := Master.hear_same m p
    have hheard : Proceeds m (m.hear p) :=
      proceeds_of_same hsame.lastLocoId (congrArg (List.map Loco.turnPart) hsame.locos)
        (turnsOf_quiet hquiet)
    exact hreceived.append hheard
  calmHeard _ _ _ h := h.proceeds
  request p m _ h := by
    have hsame := Master.handleServiceRequest_same m p
    exact h.congr hsame.lastLocoId (by rw [hsame.locos])
  calm _ _ h := h.proceeds
  service m _ _ _ := by
    obtain ⟨hsame, hsent⟩ := Master.handleServiceMode_same m
    exact proceeds_of_sent hsame.sameLocos hsent
  loop := processLoop_proceeds

/-- The locomotives with an address, from the second one in the table on. -/
def order (db : List ConstLoco) : List Nat :=
  ((List.range dccNumLoco).rotate 1).filter fun id => (db[id]?).any (·.address ≠ 0)

theorem init_known (db : List ConstLoco) {id : Nat} (hid : id < dccNumLoco) :
    (Master.init db).isKnown id = (db[id]?).any (·.address ≠ 0) := by
  rw [Master.isKnown, Master.known]
  simp only [Master.init, List.getElem?_map, List.getElem?_take, if_pos hid]
  cases db[id]? with
  | none => rfl
  | some c =>
    rw [Option.map_some, Option.filter_some, Option.any_some]
    split
    · next h => rw [Option.isSome_some, h]
    · next h => rw [Option.isSome_none, Bool.eq_false_iff.mpr h]

theorem init_refreshes (db : List ConstLoco) : Refreshes (Master.init db) ⟨order db, false⟩ := by
  refine ⟨?_, fun id l hl _ => ?_⟩
  · have hround : List.iterate nextPlace (startPlace (Master.init db).lastLocoId) dccNumLoco =
        (List.range dccNumLoco).rotate 1 := by
      change List.iterate nextPlace (startPlace 0) dccNumLoco = _
      decide
    rw [found, order, hround]
    refine List.filter_congr fun id hid => init_known db ?_
    exact List.mem_range.mp (List.mem_rotate.mp hid)
  · obtain ⟨hl, -⟩ := Master.known_eq_some hl
    simp only [Master.init, List.getElem?_map] at hl
    obtain ⟨c, -, rfl⟩ := Option.map_eq_some_iff.mp hl
    simp

/-- In every run the `k`-th turn of the refresh is for the locomotive at place `k / 2` of the order,
round and round, with the speed first and then the functions.  Commands, service mode and a booster
that is full or off in between change neither.  Where nothing waits and the booster takes packets,
the loop takes a turn. -/
theorem refresh_in_rotation (db : List ConstLoco) (inputs : List Input) {m : Master}
    {log : List Event} (hrun : Trace.run (step db) (Master.init db, []) inputs = some (m, log)) :
    (∀ k < (turnsOf log).length, (turnsOf log)[k]? =
        ((order db)[k / 2 % (order db).length]?).map fun id => (id, decide (k % 2 = 1))) ∧
      (order db ≠ [] → m.MayLoop → m.priority = [] → (turnsOf m.processLoop.2).length = 1) := by
  obtain ⟨u, hlog, hu⟩ := parts_proceed.steps (init_refreshes db) hrun
  have hsteps : Steps Turns.Step ⟨order db, false⟩ (turnsOf log) u := steps_hide.mp hlog
  refine ⟨fun k hk => getElem?_of_steps hsteps hk, fun horder hmay hpriority => ?_⟩
  have hqueue : u.queue ≠ [] := fun hnil =>
    horder (List.nil_perm.mp (hnil ▸ perm_of_steps hsteps))
  obtain ⟨-, -, -, hturn⟩ := refresh_proceeds hu
  have hloop : m.processLoop = m.refresh := by
    obtain ⟨halive, henabled, hmode, hroom⟩ := hmay
    unfold Master.processLoop
    rw [halive, henabled, hmode, if_pos (by simpa using hroom), hpriority]
  rw [hloop]
  exact hturn hqueue

/-- Three locomotives take turns, with a command in between. -/
theorem keepalives_in_rotation :
    ∃ m log, Trace.run (step sampleDb) (Master.init sampleDb, [])
        [keepalive 9, keepalive 9, .setLocoFn 2 0 1, keepalive 9, keepalive 9] = some (m, log) ∧
      turnsOf log = [(2, false), (2, true), (3, false), (3, true), (0, false), (0, true),
        (2, false)] ∧
      (∀ k < (turnsOf log).length, (turnsOf log)[k]? = ((order sampleDb)[k / 2 %
        (order sampleDb).length]?).map fun id => (id, decide (k % 2 = 1))) ∧
      (turnsOf m.processLoop.2).length = 1 := by
  have hend : (Trace.run (step sampleDb) (Master.init sampleDb, [])
      [keepalive 9, keepalive 9, .setLocoFn 2 0 1, keepalive 9, keepalive 9]).map (fun s =>
        (turnsOf s.2, s.1.alive, s.1.enabled, s.1.serviceMode, s.1.freePacketCount,
          s.1.priority)) =
      some ([(2, false), (2, true), (3, false), (3, true), (0, false), (0, true), (2, false)],
        true, true, false, 7, []) := by
    rfl
  obtain ⟨⟨m, log⟩, hrun, hvalues⟩ := Option.map_eq_some_iff.mp hend
  simp only [Prod.mk.injEq] at hvalues
  obtain ⟨hturns, halive, henabled, hmode, hfree, hpriority⟩ := hvalues
  obtain ⟨hrotation, hnext⟩ := refresh_in_rotation sampleDb _ hrun
  have hmay : m.MayLoop := ⟨halive, henabled, hmode, by rw [hfree]; decide⟩
  exact ⟨m, log, hrun, hturns, hrotation, hnext (by decide) hmay hpriority⟩

/-! ### The functions of DCC -/

/-- The refresh is at the first group of functions of each locomotive of DCC. -/
def Master.AtFirstGroup (m : Master) : Prop :=
  ∀ l ∈ m.locos, l.isDcc = true → l.loopPosition.toNat ≤ 4

/-- From 0 the position comes to 4, and then it stays at 1. -/
theorem nextPosition_le {l : Loco} (hdcc : l.isDcc = true) :
    (Master.nextPosition l).toNat ≤ 4 := by
  unfold Master.nextPosition
  rw [if_pos hdcc]
  split
  · decide
  · next h => exact BitVec.le_def.mp (BitVec.not_lt.mp h)

theorem loopPosition_le_of_turnPart {l l' : Loco} (h : l'.turnPart = l.turnPart)
    (hl : l.isDcc = true → l.loopPosition.toNat ≤ 4) (hdcc : l'.isDcc = true) :
    l'.loopPosition.toNat ≤ 4 := by
  simp only [Loco.turnPart, Prod.mk.injEq] at h
  obtain ⟨-, -, htype, hposition⟩ := h
  rw [hposition]
  refine hl ?_
  rw [Loco.isDcc, ← htype]
  exact hdcc

theorem atFirstGroup_of_turnPart {m m' : Master}
    (h : m'.locos.map Loco.turnPart = m.locos.map Loco.turnPart) (hm : m.AtFirstGroup) :
    m'.AtFirstGroup := by
  intro l' hl'
  obtain ⟨l, hl, hpart⟩ := List.mem_map.mp (h ▸ List.mem_map_of_mem hl')
  exact loopPosition_le_of_turnPart hpart.symm (hm l hl)

theorem refresh_atFirstGroup {m : Master} (hm : m.AtFirstGroup) :
    m.refresh.1.AtFirstGroup := by
  have hset : ∀ (id : Nat) (l' : Loco), (l'.isDcc = true → l'.loopPosition.toNat ≤ 4) →
      ∀ l ∈ m.locos.set id l', l.isDcc = true → l.loopPosition.toNat ≤ 4 := by
    intro id l' hl' l hl hdcc
    rcases List.mem_or_eq_of_mem_set hl with hl | rfl
    · exact hm l hl hdcc
    · exact hl' hdcc
  unfold Master.refresh
  rcases m.nextLoco_cases dccNumLoco m.lastLocoId with ⟨-, hend, -⟩ | ⟨place, l, -, -, hl, -, hnext⟩
  · generalize m.nextLoco dccNumLoco m.lastLocoId = r at hend
    obtain ⟨last, found⟩ := r
    cases hend
    exact hm
  · rw [hnext]
    dsimp only
    split
    · have hmem := List.mem_of_getElem? (Master.known_eq_some hl).1
      have hsent : (sendDccLocoSpeedPacket l false).1.isDcc = true →
          (sendDccLocoSpeedPacket l false).1.loopPosition.toNat ≤ 4 :=
        loopPosition_le_of_turnPart (turnPart_sendDccLocoSpeedPacket l false) (hm l hmem)
      exact hset _ _ hsent
    · split <;> exact hset _ _ fun hdcc => nextPosition_le hdcc

theorem parts_atFirstGroup :
    Master.Parts (fun (_ : Unit) _ _ => True) (fun m _ => m.AtFirstGroup)
      fun _ m _ => m.AtFirstGroup := by
  refine Master.parts_of_invariant (fun m r h => atFirstGroup_of_turnPart h.locos)
    (fun m m' h => atFirstGroup_of_turnPart (congrArg (List.map Loco.turnPart) h.locos)) ?_
  intro m hm
  unfold Master.processLoop
  split
  · split
    · exact atFirstGroup_of_turnPart (sendPriority_locos m _ _) hm
    · exact refresh_atFirstGroup hm
  · exact hm

/-- At every point of every run, the packet that the refresh has next for the functions of a
locomotive of DCC tells the lights and the first four, and nothing of those above. -/
theorem refresh_first_functions (db : List ConstLoco) (inputs : List Input) {m : Master}
    {log : List Event} (hrun : Trace.run (step db) (Master.init db, []) inputs = some (m, log))
    {l : Loco} (hl : l ∈ m.locos) (hdcc : l.isDcc = true) :
    ∃ data, sendLocoFnPacket l l.loopPosition.toNat false = some data ∧
      ∀ f, dccFunctionIn data f = if f ≤ 4 then some (l.fn.getLsbD f) else none := by
  have hstart : (Master.init db).AtFirstGroup := by
    intro l hl _
    obtain ⟨c, -, rfl⟩ := List.mem_map.mp hl
    exact Nat.zero_le 4
  obtain ⟨-, -, hm⟩ := parts_atFirstGroup.steps (s := ()) hstart hrun
  have hposition := hm l hl hdcc
  refine ⟨dccPacket _ (dccFnBytes l.fn l.loopPosition.toNat).1 _
    (dccFnBytes l.fn l.loopPosition.toNat).2.1 (dccFnBytes l.fn l.loopPosition.toNat).2.2,
    if_pos hdcc, fun f => ?_⟩
  refine (dccFunctionIn_packet l.fn l.loopPosition.toNat _ _ f).trans ?_
  rw [dccFnGroup, if_pos hposition]
  simp only [Nat.zero_le, true_and]

/-- The fifth function is on, and the refresh has nothing to tell of it. -/
theorem keepalive_first_functions :
    ∃ m log l data, Trace.run (step sampleDb) (Master.init sampleDb, [])
        [keepalive 9, .setLocoFn 0 5 1, keepalive 9] = some (m, log) ∧
      l ∈ m.locos ∧ l.fn.getLsbD 5 = true ∧
      sendLocoFnPacket l l.loopPosition.toNat false = some data ∧
      dccFunctionIn data 5 = none := by
  have hend : (Trace.run (step sampleDb) (Master.init sampleDb, [])
      [keepalive 9, .setLocoFn 0 5 1, keepalive 9]).map (fun s =>
        (s.1.locos.head?).map fun l => (l.isDcc, l.fn.getLsbD 5)) = some (some (true, true)) := by
    decide
  obtain ⟨⟨m, log⟩, hrun, hhead⟩ := Option.map_eq_some_iff.mp hend
  obtain ⟨l, hl, hvalues⟩ := Option.map_eq_some_iff.mp hhead
  obtain ⟨hdcc, hfn⟩ := Prod.mk.inj hvalues
  have hmem := List.mem_of_mem_head? hl
  obtain ⟨data, hdata, hsays⟩ := refresh_first_functions sampleDb _ hrun hmem hdcc
  exact ⟨m, log, l, data, hrun, hmem, hfn, hdata, hsays 5⟩

end OpenmrnCue.DccMaster
