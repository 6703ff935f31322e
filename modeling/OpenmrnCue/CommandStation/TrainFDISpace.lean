import OpenmrnCue.CommandStation.FdiXmlGenerator

/-! `TrainFDISpace` of `AllTrainNodes.cxx`: the memory space with the function descriptions of the
trains.  One generator serves all of them; it starts again for another node and for a read that does
not go forward. -/

namespace OpenmrnCue.CommandStation

open XmlGenerator FdiXmlGenerator

/-- The result of a read in a memory space. -/
inductive ReadError where
  | none
  | outOfBounds
  | permanent
deriving DecidableEq, Repr

/-- `TrainFDISpace`.  `impl` is the node with its number in the train database. -/
structure TrainFDISpace (Node : Type) where
  gen : XmlGenerator Data
  impl : Option (Node × Nat)

namespace TrainFDISpace

variable {Node : Type} [DecidableEq Node] (integerToBuffer : Int → List Char)
  (findNode : Node → Option Nat) (getEntry : Nat → TrainDbEntry)

/-- `reset_file`, for the train with this number. -/
def resetFile (space : TrainFDISpace Node) (id : Nat) : TrainFDISpace Node :=
  { space with gen := reset space.gen (getEntry id) }

/-- `set_node`. -/
def setNode (space : TrainFDISpace Node) (node : Node) : Bool × TrainFDISpace Node :=
  if space.impl.map Prod.fst = some node then (true, space)
  else
    match findNode node with
    | some id => (true, resetFile getEntry { space with impl := some (node, id) } id)
    | none => (false, { space with impl := none })

omit [DecidableEq Node] in
/-- `read`, of a number of rounds of the generator: the data, the error and the space after it. -/
def read (fuel : Nat) (space : TrainFDISpace Node) (source len : Nat) :
    Option (List Char × ReadError × TrainFDISpace Node) :=
  match space.impl with
  | none => none
  | some (_, id) =>
    let space := if source ≤ space.gen.fileOffset then resetFile getEntry space id else space
    (space.gen.read integerToBuffer generateMore fuel source len).map fun (result, gen) =>
      match result with
      | none => ([], .permanent, { space with gen })
      | some data => (data, if data.isEmpty then .outOfBounds else .none, { space with gen })

/-- The spaces that calls of `set_node` and `read` lead to.  At the start there is no node. -/
inductive Used : TrainFDISpace Node → Prop
  | start (gen : XmlGenerator Data) : Used ⟨gen, none⟩
  | setNode {space : TrainFDISpace Node} (hused : Used space) (node : Node) :
      Used (setNode findNode getEntry space node).2
  | read {space space' : TrainFDISpace Node} {fuel source len : Nat} {data : List Char}
      {error : ReadError} (hused : Used space)
      (hread : read integerToBuffer getEntry fuel space source len = some (data, error, space')) :
      Used space'

variable {integerToBuffer findNode getEntry} {space : TrainFDISpace Node} {node : Node} {id : Nat}

/-- The generator has been reset for the train of the space and read since. -/
def Serves (integerToBuffer : Int → List Char) (getEntry : Nat → TrainDbEntry)
    (space : TrainFDISpace Node) : Prop :=
  ∀ node id, space.impl = some (node, id) → ∃ nextFunction,
    Reached integerToBuffer generateMore (start (getEntry id) nextFunction) space.gen

omit [DecidableEq Node] in
/-- The space that is read, after a reset or as it is: its generator does not go back. -/
theorem Serves.forward (h : Serves integerToBuffer getEntry space)
    (himpl : space.impl = some (node, id)) (source : Nat) :
    ∃ space₁ : TrainFDISpace Node,
      (if source ≤ space.gen.fileOffset then resetFile getEntry space id else space) = space₁ ∧
      space₁.impl = some (node, id) ∧ space₁.gen.fileOffset ≤ source ∧ ∃ nextFunction,
        Reached integerToBuffer generateMore (start (getEntry id) nextFunction) space₁.gen := by
  by_cases hback : source ≤ space.gen.fileOffset
  · rw [if_pos hback]
    exact ⟨_, rfl, himpl, Nat.zero_le _, _, reached_reset space.gen (getEntry id)⟩
  · rw [if_neg hback]
    exact ⟨_, rfl, himpl, by omega, h node id himpl⟩

omit [DecidableEq Node] in
theorem serves_of_reached {gen : XmlGenerator Data} {nextFunction : Int}
    (himpl : space.impl = some (node, id))
    (hreached : Reached integerToBuffer generateMore (start (getEntry id) nextFunction) gen) :
    Serves integerToBuffer getEntry { space with gen } := by
  intro node' id' himpl'
  cases himpl.symm.trans himpl'
  exact ⟨nextFunction, hreached⟩

theorem Used.serves (h : Used integerToBuffer findNode getEntry space) :
    Serves integerToBuffer getEntry space := by
  induction h with
  | start gen => exact nofun
  | @setNode space hused node ih =>
    unfold TrainFDISpace.setNode
    split
    · exact ih
    · split
      · exact serves_of_reached rfl (reached_reset space.gen _)
      · exact nofun
  | @read space space' fuel source len data error hused hread ih =>
    unfold TrainFDISpace.read at hread
    split at hread
    · cases hread
    next node id himpl =>
      obtain ⟨space₁, hspace₁, himpl₁, -, next, hreached⟩ := ih.forward himpl source
      obtain ⟨⟨result, gen'⟩, hgen, heq⟩ := Option.map_eq_some_iff.mp hread
      simp only [hspace₁] at hgen heq
      have hreached' := hreached.read hgen
      cases result with
      | none =>
        cases heq
        exact serves_of_reached himpl₁ hreached'
      | some data =>
        cases heq
        exact serves_of_reached himpl₁ hreached'

/-- A read of the train of the space, with enough rounds. -/
theorem Used.read_eq (h : Used integerToBuffer findNode getEntry space)
    (hmax : ∀ id, -1 ≤ (getEntry id).getMaxFn) (himpl : space.impl = some (node, id))
    (source len : Nat) :
    ∃ enough space', ∀ fuel, enough ≤ fuel →
      space.read integerToBuffer getEntry fuel source len =
        some (((document integerToBuffer (getEntry id)).drop source).take len,
          if ((document integerToBuffer (getEntry id)).drop source).take len = []
            then .outOfBounds else .none, space') := by
  obtain ⟨space₁, hspace₁, himpl₁, hoffset, next, hreached⟩ := h.serves.forward himpl source
  obtain ⟨enough, gen', hread⟩ :=
    (hreached.read_eq (emits_start (hmax id) next) source len).2 hoffset
  rw [texts_documentBatches] at hread
  refine ⟨enough, { space₁ with gen := gen' }, fun fuel hfuel => ?_⟩
  simp only [TrainFDISpace.read, himpl, hspace₁, hread fuel hfuel, Option.map_some,
    List.isEmpty_iff]

/-- Reads of a generated file find its contents, in any order: those of a generator as long as they
do not go back before the first pending piece, those of the memory space always. -/
theorem reads_find_contents {σ : Type} {generateMore : σ → σ × List GeneratorAction} {s : σ}
    {batches : List (List GeneratorAction)} (hemits : Emits generateMore s batches)
    {gen : XmlGenerator σ} (hreached : Reached integerToBuffer generateMore s gen)
    (hmax : ∀ id, -1 ≤ (getEntry id).getMaxFn)
    (hused : Used integerToBuffer findNode getEntry space) (offset len : Nat) :
    (offset < gen.fileOffset → ∀ fuel,
      gen.read integerToBuffer generateMore fuel offset len = some (none, gen)) ∧
    (gen.fileOffset ≤ offset → ∃ enough gen', ∀ fuel, enough ≤ fuel →
      gen.read integerToBuffer generateMore fuel offset len =
        some (some (((batches.flatMap (texts integerToBuffer)).drop offset).take len), gen')) ∧
    (∀ node id, space.impl = some (node, id) → ∃ enough space', ∀ fuel, enough ≤ fuel →
      space.read integerToBuffer getEntry fuel offset len =
        some (((document integerToBuffer (getEntry id)).drop offset).take len,
          if ((document integerToBuffer (getEntry id)).drop offset).take len = []
            then .outOfBounds else .none, space')) := by
  obtain ⟨hback, hforward⟩ := hreached.read_eq hemits offset len
  exact ⟨hback, hforward, fun node id himpl => hused.read_eq hmax himpl offset len⟩

/-- The space after `set_node` for the node 7, which is train 0. -/
def sampleSpace : TrainFDISpace Nat :=
  (setNode (fun _ => some 0) (fun _ => sampleEntry) ⟨usedGenerator, none⟩ 7).2

theorem sampleSpace_reads :
    (∃ enough gen', ∀ fuel, enough ≤ fuel →
      (reset usedGenerator sampleEntry).read decimal generateMore fuel 5 10 =
        some (some ((((documentBatches sampleEntry).flatMap (texts decimal)).drop 5).take 10),
          gen')) ∧
    (∃ enough space', ∀ fuel, enough ≤ fuel →
      sampleSpace.read decimal (fun _ => sampleEntry) fuel 5 10 =
        some (((document decimal sampleEntry).drop 5).take 10,
          if ((document decimal sampleEntry).drop 5).take 10 = [] then .outOfBounds else .none,
          space')) := by
  have hused : Used decimal (fun _ => some 0) (fun _ => sampleEntry) sampleSpace :=
    .setNode (.start usedGenerator) 7
  obtain ⟨-, hforward, hspace⟩ := reads_find_contents
    (emits_start (by decide) usedGenerator.state.nextFunction)
    (reached_reset usedGenerator sampleEntry) (fun _ => by decide) hused 5 10
  exact ⟨hforward (Nat.zero_le _), hspace 7 0 rfl⟩

end TrainFDISpace

end OpenmrnCue.CommandStation
