import OpenmrnCue.CommandStation.XmlGenerator

/-! `FdiXmlGenerator` of `FdiXmlGenerator.cxx`: the description of the functions of a train,
produced by a state machine with one batch of output for each call. -/

namespace OpenmrnCue.CommandStation.FdiXmlGenerator

open GeneratorAction XmlGenerator

/-- What the generator asks of a `TrainDbEntry`: the largest valid function, or -1, and the label of
a function. -/
structure TrainDbEntry where
  getMaxFn : Int
  getFunctionLabel : Nat → Nat

/-- The labels of `Symbols` in `TrainDbDefs.hxx`. -/
def momentary : Nat := 128
def fnUninitialized : Nat := 255
def fnNonexistant : Nat := 0

/-- `kFdiXmlHead`. -/
def kFdiXmlHead : List Char :=
  ("<?xml version='1.0' encoding='UTF-8'?>\n" ++
    "<?xml-stylesheet type='text/xsl' href='xslt/fdi.xsl'?>\n" ++
    "<fdi xmlns:xsi='http://www.w3.org/2001/XMLSchema-instance' " ++
    "xsi:noNamespaceSchemaLocation='http://openlcb.org/trunk/prototypes/xml/schema/fdi.xsd'>\n" ++
    "<segment space='249'><group><name/>\n").toList

/-- `kFdiXmlTail`. -/
def kFdiXmlTail : List Char := "</group></segment></fdi>".toList

/-- `kFdiXmlBinaryFunction`. -/
def kFdiXmlBinaryFunction : List Char := "<function size='1' kind='binary'>\n".toList

/-- `kFdiXmlMomentaryFunction`. -/
def kFdiXmlMomentaryFunction : List Char := "<function size='1' kind='momentary'>\n".toList

/-- `labels`, without the entry that ends the table. -/
def labels : List (Nat × String) :=
  [(1, "Headlight"), (4, "Engine"), (6 ||| momentary, "Announce"), (7, "Shunting Mode"),
    (8, "Momentum"), (10, "Smoke"), (11, "Pantograph"), (12, "Far Light"), (13, "Bell"),
    (14 ||| momentary, "Horn"), (15 ||| momentary, "Whistle"), (74, "Light"),
    (9 ||| momentary, "Uncouple")]

/-- The loop of `label_for_function`. -/
def findLabel (type : Nat) : List (Nat × String) → Option String
  | [] => none
  | (fn, label) :: rest =>
    if fn &&& (0xFF ^^^ momentary) = type &&& (0xFF ^^^ momentary) then some label
    else findLabel type rest

/-- `label_for_function`.  The argument is a `uint8_t`. -/
def labelForFunction (label : Nat) : Option String := findLabel (label % 2 ^ 8) labels

/-- `State`. -/
inductive State where
  | xmlHead
  | startFn
  | fnName
  | fnNumber
  | fnEnd
  | noMoreFn
  | eof
deriving DecidableEq, Repr

/-- The data of an `FdiXmlGenerator`. -/
structure Data where
  state : State
  entry : TrainDbEntry
  nextFunction : Int

/-- A function without a label is not described. -/
def Absent (label : Nat) : Prop := label = fnNonexistant ∨ label = fnUninitialized

instance (label : Nat) : Decidable (Absent label) := inferInstanceAs (Decidable (_ ∨ _))

/-- The loop of `STATE_START_FN` that skips functions without a label; there are at most as many
rounds as functions. -/
def skipAbsent (entry : TrainDbEntry) : Nat → Int → Int
  | 0, next => next
  | rounds + 1, next =>
    if next ≤ entry.getMaxFn ∧ Absent (entry.getFunctionLabel next.toNat) then
      skipAbsent entry rounds (next + 1)
    else next

/-- `STATE_NO_MORE_FN`. -/
def noMoreFn (d : Data) : Data × List GeneratorAction :=
  ({ d with state := .eof }, [constLiteral kFdiXmlTail])

/-- `STATE_START_FN`. -/
def startFn (d : Data) : Data × List GeneratorAction :=
  let d := { d with
    nextFunction :=
      skipAbsent d.entry (d.entry.getMaxFn + 1 - d.nextFunction).toNat d.nextFunction }
  if d.entry.getMaxFn < d.nextFunction then noMoreFn { d with state := .noMoreFn }
  else if (d.entry.getFunctionLabel d.nextFunction.toNat).testBit 7 then
    ({ d with state := .fnName }, [constLiteral kFdiXmlMomentaryFunction])
  else ({ d with state := .fnName }, [constLiteral kFdiXmlBinaryFunction])

/-- The name of a function, in `STATE_FN_NAME`. -/
def nameActions (label : Nat) (fn : Int) : List GeneratorAction :=
  match labelForFunction label with
  | none => [constLiteral "F".toList, renderInt fn]
  | some label => [constLiteral label.toList]

/-- `generate_more`. -/
def generateMore (d : Data) : Data × List GeneratorAction :=
  match d.state with
  | .xmlHead => ({ d with nextFunction := 0, state := .startFn }, [constLiteral kFdiXmlHead])
  | .startFn => startFn d
  | .fnName =>
    ({ d with state := .fnNumber },
      [constLiteral "<name>".toList] ++
        nameActions (d.entry.getFunctionLabel d.nextFunction.toNat) d.nextFunction ++
        [constLiteral "</name>\n".toList])
  | .fnNumber =>
    ({ d with state := .fnEnd },
      [constLiteral "<number>".toList, renderInt d.nextFunction,
        constLiteral "</number>\n</function>\n".toList])
  | .fnEnd => startFn { d with nextFunction := d.nextFunction + 1, state := .startFn }
  | .noMoreFn => noMoreFn d
  | .eof => (d, [])

/-- The data after `reset`; the number of the next function stays as it was. -/
def start (entry : TrainDbEntry) (nextFunction : Int) : Data := ⟨.xmlHead, entry, nextFunction⟩

/-- `reset`. -/
def reset (gen : XmlGenerator Data) (entry : TrainDbEntry) : XmlGenerator Data :=
  gen.resetTo (start entry gen.state.nextFunction)

/-! ## The document -/

/-- The functions from `first` on that have a label, among `count` ones. -/
def present (entry : TrainDbEntry) (first count : Nat) : List Nat :=
  (List.range' first count).filter fun fn => ¬ Absent (entry.getFunctionLabel fn)

/-- The batches for a function. -/
def functionBatches (entry : TrainDbEntry) (fn : Nat) : List (List GeneratorAction) :=
  [[constLiteral (if (entry.getFunctionLabel fn).testBit 7 then kFdiXmlMomentaryFunction
      else kFdiXmlBinaryFunction)],
    [constLiteral "<name>".toList] ++ nameActions (entry.getFunctionLabel fn) fn ++
      [constLiteral "</name>\n".toList],
    [constLiteral "<number>".toList, renderInt fn,
      constLiteral "</number>\n</function>\n".toList]]

section batches

variable {entry : TrainDbEntry} {first count : Nat}

/-- The loop over functions without a label ends at the first function with one, or behind the last
function. -/
theorem skipAbsent_cases (hcount : entry.getMaxFn + 1 = first + count) :
    (present entry first count = [] ∧ skipAbsent entry count first = first + count) ∨
    ∃ skipped, skipped < count ∧ skipAbsent entry count first = (first + skipped : Nat) ∧
      present entry first count =
        (first + skipped) :: present entry (first + skipped + 1) (count - (skipped + 1)) := by
  induction count generalizing first with
  | zero => exact .inl ⟨rfl, by simp [skipAbsent]⟩
  | succ count ih =>
    rw [skipAbsent, Int.toNat_natCast]
    by_cases habsent : Absent (entry.getFunctionLabel first)
    · have hnext : present entry first (count + 1) = present entry (first + 1) count := by
        rw [present, List.range'_succ, List.filter_cons_of_neg (by simpa using habsent)]
        rfl
      rw [if_pos ⟨by omega, habsent⟩, hnext]
      rcases @ih (first + 1) (by push_cast; omega) with ⟨hnil, hskip⟩ | hsome
      · exact .inl ⟨hnil, by push_cast at hskip ⊢; omega⟩
      · obtain ⟨skipped, hlt, hskip, hpresent⟩ := hsome
        refine .inr ⟨skipped + 1, by omega, ?_, ?_⟩
        · push_cast at hskip ⊢
          omega
        · rw [hpresent, show first + (skipped + 1) = first + 1 + skipped by omega,
            Nat.add_sub_add_right]
    · rw [if_neg fun h => habsent h.2]
      refine .inr ⟨0, by omega, rfl, ?_⟩
      rw [present, List.range'_succ, List.filter_cons_of_pos (by simpa using habsent)]
      rfl

theorem silent_eof (nextFunction : Int) : Silent generateMore ⟨.eof, entry, nextFunction⟩ := by
  intro n
  have hfix : (fun d => (generateMore d).1)^[n] ⟨.eof, entry, nextFunction⟩ =
      ⟨.eof, entry, nextFunction⟩ := Function.iterate_fixed rfl n
  rw [hfix]
  rfl

/-- From `STATE_START_FN` on the functions that are left come, and then the end. -/
theorem emits_startFn (first : Nat) (state : State) {d : Data}
    (hcount : entry.getMaxFn + 1 = first + count)
    (hd : generateMore d = startFn ⟨state, entry, first⟩) :
    Emits generateMore d
      ((present entry first count).flatMap (functionBatches entry) ++
        [[constLiteral kFdiXmlTail]]) := by
  induction hn : count using Nat.strongRecOn generalizing first count d state with
  | ind n ih =>
    subst hn
    have hrounds : (entry.getMaxFn + 1 - first).toNat = count := by omega
    rw [startFn, hrounds] at hd
    rcases skipAbsent_cases hcount with ⟨hnil, hskip⟩ | ⟨skipped, hlt, hskip, hpresent⟩
    · simp only [hskip, if_pos (show entry.getMaxFn < (first : Int) + count by omega)] at hd
      rw [hnil]
      refine ⟨by simp, by rw [hd]; rfl, ?_⟩
      rw [hd]
      exact silent_eof _
    · simp only [hskip, if_neg (show ¬ entry.getMaxFn < ((first + skipped : Nat) : Int) by
        push_cast; omega), Int.toNat_natCast] at hd
      rw [hpresent, List.flatMap_cons, functionBatches, List.append_assoc]
      have hfirst : generateMore d = (⟨.fnName, entry, (first + skipped : Nat)⟩,
          [constLiteral (if (entry.getFunctionLabel (first + skipped)).testBit 7 then
            kFdiXmlMomentaryFunction else kFdiXmlBinaryFunction)]) := by
        rw [hd]
        split <;> rfl
      refine ⟨by simp, by rw [hfirst], ?_⟩
      rw [hfirst]
      refine ⟨by simp, rfl, by simp, rfl, ?_⟩
      exact ih (count - (skipped + 1)) (by omega) _ .fnEnd (by push_cast; omega) rfl rfl

end batches

/-- The functions of a train that have a label, in increasing order. -/
def labelled (entry : TrainDbEntry) : List Nat :=
  (List.range (entry.getMaxFn + 1).toNat).filter fun fn =>
    entry.getFunctionLabel fn ≠ fnNonexistant ∧ entry.getFunctionLabel fn ≠ fnUninitialized

section document

variable (integerToBuffer : Int → List Char)

/-- The name of a function: that of its label, or `F` and its number. -/
def functionName (label fn : Nat) : List Char :=
  match labelForFunction label with
  | some label => label.toList
  | none => "F".toList ++ integerToBuffer fn

/-- The element that describes a function. -/
def functionElement (entry : TrainDbEntry) (fn : Nat) : List Char :=
  (if (entry.getFunctionLabel fn).testBit 7 then kFdiXmlMomentaryFunction
    else kFdiXmlBinaryFunction) ++
  "<name>".toList ++ functionName integerToBuffer (entry.getFunctionLabel fn) fn ++
    "</name>\n".toList ++
  "<number>".toList ++ integerToBuffer fn ++ "</number>\n</function>\n".toList

/-- The description of a train. -/
def document (entry : TrainDbEntry) : List Char :=
  kFdiXmlHead ++ (labelled entry).flatMap (functionElement integerToBuffer entry) ++ kFdiXmlTail

/-- All batches for a train. -/
def documentBatches (entry : TrainDbEntry) : List (List GeneratorAction) :=
  [constLiteral kFdiXmlHead] ::
    ((labelled entry).flatMap (functionBatches entry) ++ [[constLiteral kFdiXmlTail]])

variable {integerToBuffer} {entry : TrainDbEntry} {nextFunction : Int}

theorem labelled_eq (entry : TrainDbEntry) :
    labelled entry = present entry 0 (entry.getMaxFn + 1).toNat := by
  rw [labelled, present, List.range_eq_range']
  congr
  funext fn
  simp only [Absent, not_or]

theorem texts_nameActions (integerToBuffer : Int → List Char) (label fn : Nat) :
    texts integerToBuffer (nameActions label fn) = functionName integerToBuffer label fn := by
  unfold nameActions functionName
  cases labelForFunction label <;> simp [texts, text]

theorem texts_functionBatches (entry : TrainDbEntry) (fn : Nat) :
    (functionBatches entry fn).flatMap (texts integerToBuffer) =
      functionElement integerToBuffer entry fn := by
  have hname := texts_nameActions integerToBuffer (entry.getFunctionLabel fn) fn
  simp only [texts] at hname
  simp [functionBatches, functionElement, texts, text, ← hname, List.append_assoc]

theorem texts_documentBatches (entry : TrainDbEntry) :
    (documentBatches entry).flatMap (texts integerToBuffer) = document integerToBuffer entry := by
  have hbatches :
      ((labelled entry).flatMap (functionBatches entry)).flatMap (texts integerToBuffer) =
        (labelled entry).flatMap (functionElement integerToBuffer entry) := by
    rw [List.flatMap_assoc]
    congr
    funext fn
    exact texts_functionBatches entry fn
  rw [documentBatches, List.flatMap_cons, List.flatMap_append, hbatches, document]
  simp [texts, text]

theorem emits_start (hmax : -1 ≤ entry.getMaxFn) (nextFunction : Int) :
    Emits generateMore (start entry nextFunction) (documentBatches entry) := by
  refine ⟨by simp, rfl, ?_⟩
  rw [labelled_eq]
  exact emits_startFn 0 .startFn (by omega) rfl

theorem reached_reset (gen : XmlGenerator Data) (entry : TrainDbEntry) :
    Reached integerToBuffer generateMore (start entry gen.state.nextFunction) (reset gen entry) :=
  .reset gen

/-- Reads after a reset find the description of the train, and the production ends. -/
theorem describes_functions (hmax : -1 ≤ entry.getMaxFn) {gen : XmlGenerator Data}
    (hreached : Reached integerToBuffer generateMore (start entry nextFunction) gen) :
    (∀ offset len, gen.fileOffset ≤ offset → ∃ enough gen', ∀ fuel, enough ≤ fuel →
      gen.read integerToBuffer generateMore fuel offset len =
        some (some (((kFdiXmlHead ++
          (labelled entry).flatMap (functionElement integerToBuffer entry) ++
          kFdiXmlTail).drop offset).take len), gen')) ∧
    ∃ n, Silent generateMore
      ((fun d => (generateMore d).1)^[n] (start entry nextFunction)) := by
  have hemits := emits_start hmax nextFunction
  refine ⟨fun offset len hoffset => ?_, hemits.ends⟩
  have hread := (hreached.read_eq hemits offset len).2 hoffset
  rwa [texts_documentBatches] at hread

end document

/-- A train with a light, an unknown label and two functions without one. -/
def sampleEntry : TrainDbEntry := ⟨3, fun fn => [1, 0, 139, 255].getD fn 0⟩

/-- A generator that has been read to its end. -/
def usedGenerator : XmlGenerator Data := ⟨⟨.eof, sampleEntry, 9⟩, [], 70, 0, []⟩

/-- `integer_to_buffer`, as its tests have it. -/
def decimal (data : Int) : List Char := (toString data).toList

theorem sampleEntry_described :
    (∀ offset len, (reset usedGenerator sampleEntry).fileOffset ≤ offset →
      ∃ enough gen', ∀ fuel, enough ≤ fuel →
        (reset usedGenerator sampleEntry).read decimal generateMore fuel offset len =
          some (some (((kFdiXmlHead ++ (labelled sampleEntry).flatMap
            (functionElement decimal sampleEntry) ++ kFdiXmlTail).drop offset).take len), gen')) ∧
    ∃ n, Silent generateMore ((fun d => (generateMore d).1)^[n] (start sampleEntry 9)) :=
  describes_functions (by decide) (reached_reset usedGenerator sampleEntry)

example : labelled sampleEntry = [0, 2] := by decide

end OpenmrnCue.CommandStation.FdiXmlGenerator
