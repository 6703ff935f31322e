import Mathlib.Algebra.BigOperators.Group.List.Basic
import Mathlib.Logic.Function.Iterate
import Mathlib.Algebra.Order.Ring.Int

/-! `XmlGenerator` of `XmlGenerator.cxx`: a file that is produced in pieces while it is read.  A
class that derives from it produces the pieces batch by batch; a read skips and copies their
characters.  Any order of reads finds the pieces in the order of their production, one behind the
other, as long as no read goes back before the first pending piece. -/

namespace OpenmrnCue.CommandStation

/-- `GeneratorAction`: a string literal, by its characters before the terminating zero, or an
integer to be rendered. -/
inductive GeneratorAction where
  | constLiteral (data : List Char)
  | renderInt (data : Int)
deriving DecidableEq, Repr

/-- `XmlGenerator`, with the state of the class that derives from it. -/
structure XmlGenerator (σ : Type) where
  state : σ
  pendingActions : List GeneratorAction
  fileOffset : Nat
  bufferOffset : Nat
  buffer : List Char
deriving DecidableEq, Repr

namespace XmlGenerator

variable {σ : Type}

/-- `add_to_output`. -/
def addToOutput (queue : List GeneratorAction) (action : GeneratorAction) : List GeneratorAction :=
  action :: queue

/-- The loop of `read` that moves the pending actions to `reversed`. -/
def reverseInto : List GeneratorAction → List GeneratorAction → List GeneratorAction
  | [], reversed => reversed
  | action :: pending, reversed => reverseInto pending (action :: reversed)

/-- `internal_reset`. -/
def internalReset (gen : XmlGenerator σ) : XmlGenerator σ :=
  { gen with fileOffset := 0, pendingActions := [] }

/-- `get_front_buffer`. -/
def getFrontBuffer (gen : XmlGenerator σ) : List Char :=
  match gen.pendingActions with
  | .constLiteral data :: _ => data
  | _ => gen.buffer

/-- The loop of `read` that skips data, with the characters skipped so far. -/
def skipData : List Char → Nat → Nat → List Char × Nat × Nat
  | c :: b, offset + 1, skipped => skipData b offset (skipped + 1)
  | b, offset, skipped => (b, offset, skipped)

/-- The loop of `read` that copies data, with the offset in the front buffer. -/
def copyData : List Char → Nat → List Char → Nat → List Char × Nat × List Char × Nat
  | c :: b, len + 1, output, bufferOffset => copyData b len (output ++ [c]) (bufferOffset + 1)
  | b, len, output, bufferOffset => (b, len, output, bufferOffset)

/-- A read under way: what is still to be skipped and copied, and the output. -/
structure Reading (σ : Type) where
  gen : XmlGenerator σ
  offset : Nat
  len : Nat
  output : List Char
deriving DecidableEq, Repr

section read

variable (integerToBuffer : Int → List Char) (generateMore : σ → σ × List GeneratorAction)

/-- `init_front_action`. -/
def initFrontAction (gen : XmlGenerator σ) : XmlGenerator σ :=
  match gen.pendingActions with
  | .renderInt data :: _ => { gen with bufferOffset := 0, buffer := integerToBuffer data }
  | _ => { gen with bufferOffset := 0 }

/-- The part of `read` that generates more actions. -/
def refill (gen : XmlGenerator σ) : XmlGenerator σ :=
  if gen.pendingActions.isEmpty then
    let (state, added) := generateMore gen.state
    let gen := { gen with state, pendingActions := added.foldl addToOutput [] }
    if gen.pendingActions.isEmpty then gen
    else initFrontAction integerToBuffer
      { gen with pendingActions := reverseInto gen.pendingActions [] }
  else gen

/-- The part of `read` that uses the front action. -/
def readFront (r : Reading σ) : Reading σ :=
  let (b, offset, skipped) := skipData r.gen.getFrontBuffer r.offset 0
  let (b, len, output, bufferOffset) := copyData b r.len r.output skipped
  let gen := { r.gen with bufferOffset }
  if b.isEmpty then
    let gen := { gen with
      pendingActions := gen.pendingActions.tail
      fileOffset := gen.fileOffset + bufferOffset }
    ⟨if gen.pendingActions.isEmpty then gen else initFrontAction integerToBuffer gen, offset, len,
      output⟩
  else ⟨gen, offset, len, output⟩

/-- The loop of `read`, for a number of rounds. -/
def readLoop : Nat → Reading σ → Option (Reading σ)
  | 0, _ => none
  | fuel + 1, r =>
    if r.len = 0 then some r
    else
      let r := { r with gen := r.gen.refill integerToBuffer generateMore }
      if r.gen.pendingActions.isEmpty then some r
      else readLoop fuel (readFront integerToBuffer r)

/-- `read`, of a number of rounds: what it copies, or nothing where it returns -1. -/
def read (fuel : Nat) (gen : XmlGenerator σ) (offset len : Nat) :
    Option (Option (List Char) × XmlGenerator σ) :=
  if offset < gen.fileOffset then some (none, gen)
  else
    (readLoop integerToBuffer generateMore fuel ⟨gen, offset - gen.fileOffset, len, []⟩).map
      fun r => (some r.output, r.gen)

end read

/-! ## What a class generates -/

/-- `generate_more` adds nothing, however often it is called. -/
def Silent (generateMore : σ → σ × List GeneratorAction) (s : σ) : Prop :=
  ∀ n, (generateMore ((fun s => (generateMore s).1)^[n] s)).2 = []

/-- `generate_more` adds these batches one after the other, none of them empty, and then nothing. -/
def Emits (generateMore : σ → σ × List GeneratorAction) : σ → List (List GeneratorAction) → Prop
  | s, [] => Silent generateMore s
  | s, batch :: batches =>
    batch ≠ [] ∧ (generateMore s).2 = batch ∧ Emits generateMore (generateMore s).1 batches

theorem Silent.next {generateMore : σ → σ × List GeneratorAction} {s : σ}
    (h : Silent generateMore s) : Silent generateMore (generateMore s).1 :=
  fun n => h (n + 1)

/-- The production ends. -/
theorem Emits.ends {generateMore : σ → σ × List GeneratorAction} {s : σ}
    {batches : List (List GeneratorAction)} (h : Emits generateMore s batches) :
    ∃ n, Silent generateMore ((fun s => (generateMore s).1)^[n] s) := by
  induction batches generalizing s with
  | nil => exact ⟨0, h⟩
  | cons batch batches ih =>
    obtain ⟨n, hn⟩ := ih h.2.2
    exact ⟨n + 1, hn⟩

section content

variable (integerToBuffer : Int → List Char)

/-- The characters that an action stands for. -/
def text : GeneratorAction → List Char
  | .constLiteral data => data
  | .renderInt data => integerToBuffer data

/-- The characters of actions, one after the other. -/
def texts (actions : List GeneratorAction) : List Char := actions.flatMap (text integerToBuffer)

/-- The buffer has the rendered front action. -/
def FrontReady (gen : XmlGenerator σ) : Prop :=
  ∀ data rest, gen.pendingActions = .renderInt data :: rest → gen.buffer = integerToBuffer data

end content

variable {integerToBuffer : Int → List Char} {generateMore : σ → σ × List GeneratorAction}
  {gen : XmlGenerator σ} {batches : List (List GeneratorAction)} {offset len fuel : Nat}

theorem addToOutput_foldl (added queue : List GeneratorAction) :
    added.foldl addToOutput queue = added.reverse ++ queue := by
  induction added generalizing queue with
  | nil => rfl
  | cons action added ih => simp [ih, addToOutput]

theorem reverseInto_eq (pending reversed : List GeneratorAction) :
    reverseInto pending reversed = pending.reverse ++ reversed := by
  induction pending generalizing reversed with
  | nil => rfl
  | cons action pending ih => simp [reverseInto, ih]

theorem skipData_eq (b : List Char) (offset skipped : Nat) :
    skipData b offset skipped =
      (b.drop offset, offset - b.length, skipped + min offset b.length) := by
  induction b generalizing offset skipped with
  | nil => cases offset <;> simp [skipData]
  | cons c b ih =>
    cases offset with
    | zero => simp [skipData]
    | succ offset =>
      rw [skipData, ih]
      simp only [List.drop_succ_cons, List.length_cons, Prod.mk.injEq, true_and]
      omega

theorem copyData_eq (b : List Char) (len : Nat) (output : List Char) (bufferOffset : Nat) :
    copyData b len output bufferOffset =
      (b.drop len, len - b.length, output ++ b.take len, bufferOffset + min len b.length) := by
  induction b generalizing len output bufferOffset with
  | nil => cases len <;> simp [copyData]
  | cons c b ih =>
    cases len with
    | zero => simp [copyData]
    | succ len =>
      rw [copyData, ih]
      simp only [List.drop_succ_cons, List.length_cons, List.take_succ_cons, List.append_assoc,
        List.singleton_append, Prod.mk.injEq, true_and]
      omega

/-- A generator that holds these contents: what it has left behind, the pending actions, and the
batches to come. -/
structure Holds (integerToBuffer : Int → List Char)
    (generateMore : σ → σ × List GeneratorAction) (past rest : List Char)
    (batches : List (List GeneratorAction)) (gen : XmlGenerator σ) : Prop where
  emits : Emits generateMore gen.state batches
  ready : FrontReady integerToBuffer gen
  rest : rest = texts integerToBuffer gen.pendingActions ++
    batches.flatMap (texts integerToBuffer)
  past : past.length = gen.fileOffset

namespace Holds

variable {past rest output : List Char}

theorem frontReady_initFrontAction (gen : XmlGenerator σ) :
    FrontReady integerToBuffer (initFrontAction integerToBuffer gen) := by
  unfold initFrontAction
  split
  next data actions heq =>
    intro data' actions' heq'
    obtain ⟨hdata, -⟩ := List.cons.inj (heq.symm.trans heq')
    cases hdata
    rfl
  next hfront => exact fun data actions heq => absurd heq (hfront data actions)

theorem initFrontAction_fields (integerToBuffer : Int → List Char) (gen : XmlGenerator σ) :
    (initFrontAction integerToBuffer gen).state = gen.state ∧
      (initFrontAction integerToBuffer gen).pendingActions = gen.pendingActions ∧
      (initFrontAction integerToBuffer gen).fileOffset = gen.fileOffset := by
  unfold initFrontAction
  split <;> exact ⟨rfl, rfl, rfl⟩

/-- With the front action rendered, a generator holds what its other fields say. -/
theorem initFrontAction (gen : XmlGenerator σ) (hemits : Emits generateMore gen.state batches)
    (hrest : rest = texts integerToBuffer gen.pendingActions ++
      batches.flatMap (texts integerToBuffer))
    (hpast : past.length = gen.fileOffset) :
    Holds integerToBuffer generateMore past rest batches (initFrontAction integerToBuffer gen) := by
  obtain ⟨hstate, hpending, hoffset⟩ := initFrontAction_fields integerToBuffer gen
  exact ⟨hstate ▸ hemits, frontReady_initFrontAction gen, hpending ▸ hrest, hoffset ▸ hpast⟩

/-- The number of actions that are pending or to come. -/
def pieces (gen : XmlGenerator σ) (batches : List (List GeneratorAction)) : Nat :=
  gen.pendingActions.length + (batches.map List.length).sum

/-- After the refill there is a front action, or everything has been read. -/
theorem refill (h : Holds integerToBuffer generateMore past rest batches gen) :
    ∃ batches', Holds integerToBuffer generateMore past rest batches'
        (gen.refill integerToBuffer generateMore) ∧
      pieces (gen.refill integerToBuffer generateMore) batches' = pieces gen batches ∧
      ((gen.refill integerToBuffer generateMore).pendingActions = [] → rest = []) := by
  by_cases hpending : gen.pendingActions = []
  · have hrest := h.rest
    rw [hpending] at hrest
    cases batches with
    | nil =>
      have hsilent : (generateMore gen.state).2 = [] := h.emits 0
      have heq : gen.refill integerToBuffer generateMore =
          { gen with state := (generateMore gen.state).1, pendingActions := [] } := by
        simp [XmlGenerator.refill, hpending, hsilent]
      rw [heq]
      exact ⟨[], ⟨h.emits.next, nofun, hrest, h.past⟩, by simp [pieces, hpending], fun _ => hrest⟩
    | cons batch batches =>
      obtain ⟨hne, hbatch, hemits⟩ := h.emits
      have heq : gen.refill integerToBuffer generateMore =
          XmlGenerator.initFrontAction integerToBuffer
            { gen with state := (generateMore gen.state).1, pendingActions := batch } := by
        simp [XmlGenerator.refill, hpending, hbatch, addToOutput_foldl, reverseInto_eq, hne]
      obtain ⟨-, hactions, -⟩ := initFrontAction_fields integerToBuffer
        { gen with state := (generateMore gen.state).1, pendingActions := batch }
      rw [heq]
      refine ⟨batches, initFrontAction _ hemits (hrest.trans ?_) h.past, ?_, ?_⟩
      · simp [texts]
      · simp [pieces, hactions, hpending]
      · exact fun hnil => absurd (hactions.symm.trans hnil) hne
  · have heq : gen.refill integerToBuffer generateMore = gen := by
      simp [XmlGenerator.refill, hpending]
    rw [heq]
    exact ⟨batches, h, rfl, fun hnil => absurd hnil hpending⟩

theorem getFrontBuffer (h : Holds integerToBuffer generateMore past rest batches gen)
    {action : GeneratorAction} {actions : List GeneratorAction}
    (hpending : gen.pendingActions = action :: actions) :
    gen.getFrontBuffer = text integerToBuffer action := by
  cases action with
  | constLiteral data => simp [XmlGenerator.getFrontBuffer, hpending, text]
  | renderInt data =>
    simp [XmlGenerator.getFrontBuffer, hpending, text, h.ready data actions hpending]

/-- The front action is used up, or the read is complete. -/
theorem readFront (h : Holds integerToBuffer generateMore past rest batches gen)
    (hpending : gen.pendingActions ≠ []) (offset len : Nat) (output : List Char) :
    ∃ r : Reading σ, XmlGenerator.readFront integerToBuffer ⟨gen, offset, len, output⟩ = r ∧
      ∃ past' rest', past' ++ rest' = past ++ rest ∧
        Holds integerToBuffer generateMore past' rest' batches r.gen ∧
        (pieces r.gen batches < pieces gen batches ∨
          r.len = 0 ∧ pieces r.gen batches = pieces gen batches) ∧
        r.output ++ (rest'.drop r.offset).take r.len = output ++ (rest.drop offset).take len := by
  obtain ⟨action, actions, hactions⟩ := List.exists_cons_of_ne_nil hpending
  have hrest : rest = text integerToBuffer action ++
      (texts integerToBuffer actions ++ batches.flatMap (texts integerToBuffer)) := by
    rw [h.rest, hactions, texts, List.flatMap_cons, List.append_assoc]
    rfl
  refine ⟨_, rfl, ?_⟩
  simp only [XmlGenerator.readFront, h.getFrontBuffer hactions, skipData_eq, copyData_eq]
  generalize text integerToBuffer action = b at hrest
  generalize hlater : texts integerToBuffer actions ++
    batches.flatMap (texts integerToBuffer) = later at hrest
  by_cases hused : b.length ≤ offset + len
  · rw [if_pos (by simpa using hused)]
    refine ⟨past ++ b, later, by simp [hrest], ?_, .inl ?_, ?_⟩
    · split
      next hnil =>
        refine ⟨h.emits, fun data rest heq => ?_, ?_, ?_⟩
        · exact absurd heq (by simp [List.isEmpty_iff.mp hnil])
        · simp [hactions, hlater]
        · simp [h.past]
          omega
      · refine Holds.initFrontAction _ h.emits ?_ ?_
        · simp [hactions, hlater]
        · simp [h.past]
          omega
    · split
      · simp [pieces, hactions]
      · simp [pieces, hactions, (initFrontAction_fields _ _).2.1]
    · simp only [hrest, List.drop_append, List.take_append, List.length_drop, List.append_assoc]
  · rw [if_neg (by simpa using hused)]
    refine ⟨past, rest, rfl, ⟨h.emits, h.ready, h.rest, h.past⟩, .inr ⟨?_, rfl⟩, ?_⟩
    · simp
      omega
    · have hlen : len - (b.length - offset) = 0 := by omega
      simp only [List.length_drop, hlen, Nat.zero_sub, List.take_zero, List.append_nil, hrest,
        List.drop_append, List.take_append]

/-- The loop copies what is asked for, or as much as there is. -/
theorem readLoop (h : Holds integerToBuffer generateMore past rest batches gen)
    (hfuel : pieces gen batches + 2 ≤ fuel) (offset len : Nat) (output : List Char) :
    ∃ r past' rest' batches',
      XmlGenerator.readLoop integerToBuffer generateMore fuel ⟨gen, offset, len, output⟩ = some r ∧
        past' ++ rest' = past ++ rest ∧
        Holds integerToBuffer generateMore past' rest' batches' r.gen ∧
        r.output = output ++ (rest.drop offset).take len := by
  induction fuel generalizing gen past rest batches offset len output with
  | zero => omega
  | succ fuel ih =>
    rw [XmlGenerator.readLoop]
    by_cases hlen : len = 0
    · rw [if_pos hlen]
      exact ⟨_, past, rest, batches, rfl, rfl, h, by simp [hlen]⟩
    · rw [if_neg hlen]
      obtain ⟨batches', h', hpieces, hend⟩ := h.refill
      dsimp only
      generalize gen.refill integerToBuffer generateMore = gen' at *
      by_cases hpending : gen'.pendingActions = []
      · rw [if_pos (by simp [hpending])]
        exact ⟨_, past, rest, batches', rfl, rfl, h', by simp [hend hpending]⟩
      · rw [if_neg (by simpa using hpending)]
        obtain ⟨r, hr, past', rest', hcontent, hholds, hprogress, houtput⟩ :=
          h'.readFront hpending offset len output
        rw [hr, ← houtput, ← hcontent]
        rcases hprogress with hless | ⟨hdone, hsame⟩
        · exact ih hholds (by omega) r.offset r.len r.output
        · obtain ⟨fuel, rfl⟩ : ∃ n, fuel = n + 1 := ⟨fuel - 1, by omega⟩
          rw [XmlGenerator.readLoop, if_pos hdone]
          exact ⟨r, past', rest', batches', rfl, rfl, hholds, by simp [hdone]⟩

end Holds

/-- More rounds do not change what a read gives. -/
theorem readLoop_le {fuel fuel' : Nat} {r r' : Reading σ} (hle : fuel ≤ fuel')
    (h : readLoop integerToBuffer generateMore fuel r = some r') :
    readLoop integerToBuffer generateMore fuel' r = some r' := by
  induction fuel generalizing fuel' r with
  | zero => cases h
  | succ fuel ih =>
    obtain ⟨fuel', rfl⟩ : ∃ n, fuel' = n + 1 := ⟨fuel' - 1, by omega⟩
    rw [readLoop] at h ⊢
    dsimp only at h ⊢
    split_ifs at h ⊢ with hlen hend
    · exact h
    · exact h
    · exact ih (by omega) h

/-! ## Reads in any order -/

/-- The generator after a reset to the state `start`. -/
def resetTo (gen : XmlGenerator σ) (start : σ) : XmlGenerator σ :=
  { gen.internalReset with state := start }

/-- The generators that a reset and any reads after it lead to. -/
inductive Reached (integerToBuffer : Int → List Char) (generateMore : σ → σ × List GeneratorAction)
    (start : σ) : XmlGenerator σ → Prop
  | reset (gen : XmlGenerator σ) : Reached integerToBuffer generateMore start (gen.resetTo start)
  | read {gen gen' : XmlGenerator σ} {fuel offset len : Nat} {answer : Option (List Char)}
      (hreached : Reached integerToBuffer generateMore start gen)
      (hread : gen.read integerToBuffer generateMore fuel offset len = some (answer, gen')) :
      Reached integerToBuffer generateMore start gen'

section random

variable {start : σ}

theorem holds_resetTo (gen : XmlGenerator σ) (hemits : Emits generateMore start batches) :
    Holds integerToBuffer generateMore [] (batches.flatMap (texts integerToBuffer)) batches
      (gen.resetTo start) :=
  ⟨hemits, nofun, rfl, rfl⟩

/-- A read behind the first pending piece, with enough rounds. -/
theorem Holds.read {past rest : List Char}
    (h : Holds integerToBuffer generateMore past rest batches gen)
    (hoffset : gen.fileOffset ≤ offset) (len : Nat) :
    ∃ enough past' rest' batches' gen', past' ++ rest' = past ++ rest ∧
      Holds integerToBuffer generateMore past' rest' batches' gen' ∧
      ∀ fuel, enough ≤ fuel → gen.read integerToBuffer generateMore fuel offset len =
        some (some (((past ++ rest).drop offset).take len), gen') := by
  obtain ⟨r, past', rest', batches', hloop, hcontent, hholds, houtput⟩ :=
    h.readLoop (Nat.le_refl _) (offset - gen.fileOffset) len []
  refine ⟨pieces gen batches + 2, past', rest', batches', r.gen, hcontent, hholds,
    fun fuel hfuel => ?_⟩
  have hdrop : (past ++ rest).drop offset = rest.drop (offset - gen.fileOffset) := by
    rw [← h.past, List.drop_append, List.drop_eq_nil_of_le (h.past.trans_le hoffset),
      List.nil_append]
  rw [XmlGenerator.read, if_neg (Nat.not_lt.mpr hoffset), readLoop_le hfuel hloop, hdrop,
    Option.map_some, houtput, List.nil_append]

/-- Whatever has been read, the generator holds the same contents. -/
theorem Reached.holds (h : Reached integerToBuffer generateMore start gen)
    (hemits : Emits generateMore start batches) :
    ∃ past rest batches', past ++ rest = batches.flatMap (texts integerToBuffer) ∧
      Holds integerToBuffer generateMore past rest batches' gen := by
  induction h with
  | reset gen => exact ⟨[], _, batches, rfl, holds_resetTo gen hemits⟩
  | @read gen gen' fuel offset len answer hreached hread ih =>
    obtain ⟨past, rest, batches', hcontent, hholds⟩ := ih
    by_cases hoffset : offset < gen.fileOffset
    · rw [XmlGenerator.read, if_pos hoffset] at hread
      cases hread
      exact ⟨past, rest, batches', hcontent, hholds⟩
    · obtain ⟨enough, past', rest', batches'', gen'', hcontent', hholds', heq⟩ :=
        hholds.read (Nat.not_lt.mp hoffset) len
      have hmore : gen.read integerToBuffer generateMore (max enough fuel) offset len =
          some (answer, gen') := by
        rw [XmlGenerator.read, if_neg hoffset, Option.map_eq_some_iff] at hread ⊢
        obtain ⟨r, hloop, hr⟩ := hread
        exact ⟨r, readLoop_le (Nat.le_max_right _ _) hloop, hr⟩
      rw [heq _ (Nat.le_max_left _ _)] at hmore
      cases hmore
      exact ⟨past', rest', batches'', hcontent'.trans hcontent, hholds'⟩

/-- What a read gives after any reads that follow a reset: nothing if it goes back before the first
pending piece, else the characters at its offset. -/
theorem Reached.read_eq (h : Reached integerToBuffer generateMore start gen)
    (hemits : Emits generateMore start batches) (offset len : Nat) :
    (offset < gen.fileOffset → ∀ fuel,
      gen.read integerToBuffer generateMore fuel offset len = some (none, gen)) ∧
    (gen.fileOffset ≤ offset → ∃ enough gen', ∀ fuel, enough ≤ fuel →
      gen.read integerToBuffer generateMore fuel offset len =
        some (some (((batches.flatMap (texts integerToBuffer)).drop offset).take len), gen')) := by
  constructor
  · intro hlt fuel
    rw [XmlGenerator.read, if_pos hlt]
  · intro hle
    obtain ⟨past, rest, batches', hcontent, hholds⟩ := h.holds hemits
    obtain ⟨enough, -, -, -, gen', -, -, heq⟩ := hholds.read hle len
    exact ⟨enough, gen', hcontent ▸ heq⟩

end random

end XmlGenerator

end OpenmrnCue.CommandStation
