import OpenmrnCue.CommandStation.FindProtocolDefs

/-! Allocation of trains by the search protocol: `iteration_done` of `FindProtocolServer.hxx`, with
`create_impl`, `allocate_node` and `DccTrainDbEntry` of `AllTrainNodes.cxx`.  A query that matches
no train creates one at the address of the query.  The new entry keeps sixteen bits of that address,
and the query has up to six digits. -/

namespace OpenmrnCue.CommandStation.FindProtocolDefs

open DccMode

/-- What `create_impl` is compiled for. -/
inductive Build where
  | emscripten
  | freeRtos
  | native
deriving DecidableEq, Repr

/-- The switch of `create_impl`: the drive modes that have an implementation. -/
def isSupported (build : Build) (mode : DccMode) : Bool :=
  match build with
  | .emscripten => true
  | .freeRtos => mode ∈ driveModes
  | .native => mode ∈ driveModes ∨ mode = fakeDrive
where
  driveModes : List DccMode :=
    [marklinOld, marklinDefault, marklinNew, marklinTwoaddr, dcc14, dcc14 ||| dccLongAddress, dcc28,
      dcc28 ||| dccLongAddress, dcc128, dcc128 ||| dccLongAddress]

/-- The digits of a name. -/
def digitsOf (name : List Char) : List Nat :=
  (name.filter isNumber).map fun c => c.toNat - '0'.toNat

/-- A number in decimal. -/
def decimal (address : Nat) : List Nat :=
  if address = 0 then [0] else (Nat.digits 10 address).reverse

/-- `train_node_name_from_legacy` has the address in decimal for its digits, after a zero for a long
address that could be a short one. -/
def NamesAddress (trainNodeNameFromLegacy : TrainAddressType → Nat → List Char) : Prop :=
  ∀ type address, digitsOf (trainNodeNameFromLegacy type address) = decimal address ∨
    address < 128 ∧ digitsOf (trainNodeNameFromLegacy type address) = 0 :: decimal address

section Allocation

variable (trainNodeNameFromLegacy : TrainAddressType → Nat → List Char) (build : Build)

/-- `DccTrainDbEntry`: `address_` is a `uint16_t`. -/
def dccTrainDbEntry (mode : DccMode) (address : Nat) : TrainDbEntry where
  legacyAddress := address % 2 ^ 16
  legacyDriveMode := mode
  trainName := trainNodeNameFromLegacy (dccModeToAddressType mode (address % 2 ^ 16))
    (address % 2 ^ 16)

/-- `allocate_node`: the entry that is added to the database, if any. -/
def allocateNode (mode : DccMode) (address : Nat) : Option TrainDbEntry :=
  if isSupported build mode then some (dccTrainDbEntry trainNodeNameFromLegacy mode address)
  else none

/-- `hasMatches_` after the iteration over all trains. -/
def hasMatches (event : Nat) (trains : List TrainDbEntry) : Bool :=
  trains.any fun train => matchQueryToNode event train ≠ 0

/-- `iteration_done`: the entry that a query allocates. -/
def iterationDone (event : Nat) (trains : List TrainDbEntry) : Option TrainDbEntry :=
  if hasMatches event trains then none
  else if HasFlag event allocate then
    allocateNode trainNodeNameFromLegacy build (queryToAddress event).1 (queryToAddress event).2
  else none

/-- A query that allocated a train finds it from then on, whatever other trains there are, and it
does not allocate again. -/
def Idempotent (event : Nat) : Prop :=
  ∀ trains entry, iterationDone trainNodeNameFromLegacy build event trains = some entry →
    matchQueryToNode event entry ≠ 0 ∧
    ∀ later, entry ∈ later → hasMatches event later ∧
      iterationDone trainNodeNameFromLegacy build event later = none

end Allocation

/-! ## The address fits -/

theorem allocated_mode_matches : ∀ reqMode < 32, ∀ prefixZero : Bool,
    let mode := longAddressDriveType prefixZero (allocateDriveType reqMode)
    reqMode = default ∨ dccModeToProtocol mode = dccModeToProtocol reqMode := by
  decide

theorem matchEventToDriveMode_allocated {event : Nat} (h : HasFlag event allocate) :
    matchEventToDriveMode event (queryToMode event) = true := by
  have hreq : event &&& protocolMask < 32 :=
    Nat.lt_of_le_of_lt Nat.and_le_right (by decide)
  have hmode := allocated_mode_matches (event &&& protocolMask) hreq (hasPrefixZero event)
  simp only [matchEventToDriveMode, queryToMode, if_pos h]
  rcases hmode with hdefault | hprotocol
  · rw [if_pos hdefault]
  · split
    · rfl
    · split
      · rfl
      · exact decide_eq_true hprotocol

/-- The entry is found by its address. -/
theorem match_allocated {names : TrainAddressType → Nat → List Char} {event : Nat}
    (halloc : HasFlag event allocate) (hfits : suppliedAddress event < 2 ^ 16) :
    matchQueryToNode event (dccTrainDbEntry names (queryToMode event) (suppliedAddress event)) ≠ 0 := by
  have haddress : suppliedAddress event % 2 ^ 16 = suppliedAddress event := Nat.mod_eq_of_lt hfits
  simp only [matchQueryToNode, queryToAddress, dccTrainDbEntry, haddress,
    matchEventToDriveMode_allocated halloc]
  split
  · decide
  · simp [matchAny, addressOnly, exact]

/-! ## The address does not fit -/

theorem valueOf_reverse (digits : List Nat) : valueOf digits.reverse = Nat.ofDigits 10 digits := by
  induction digits with
  | nil => rfl
  | cons digit digits ih =>
    rw [List.reverse_cons, valueOf, List.foldl_append, Nat.ofDigits_cons, ← ih, valueOf]
    simp only [List.foldl_cons, List.foldl_nil]
    ring

theorem valueOf_decimal (address : Nat) : valueOf (decimal address) = address := by
  unfold decimal
  split
  · next h => rw [h]; rfl
  · rw [valueOf_reverse, Nat.ofDigits_digits]

theorem length_decimal {address width : Nat} (hwidth : 0 < width) (h : address < 10 ^ width) :
    (decimal address).length ≤ width := by
  unfold decimal
  split
  · exact hwidth
  · rw [List.length_reverse]
    exact (Nat.digits_length_le_iff (by decide) address).mpr h

theorem isAddressPrefix_le {supplied fuel address : Nat}
    (h : isAddressPrefix supplied fuel address = true) : supplied ≤ address := by
  induction fuel generalizing address with
  | zero => cases h
  | succ fuel ih =>
    rw [isAddressPrefix] at h
    split at h
    · cases h
    · split at h
      · next heq => exact Nat.le_of_eq heq.symm
      · exact Nat.le_trans (ih h) (Nat.div_le_self address 10)

theorem digitsOf_dropWhile (name : List Char) :
    digitsOf (name.dropWhile (!isNumber ·)) = digitsOf name := by
  induction name with
  | nil => rfl
  | cons c name ih =>
    cases hc : isNumber c with
    | true => rw [List.dropWhile_cons_of_neg (by simp [hc])]
    | false =>
      rw [List.dropWhile_cons_of_pos (by simp [hc]), ih]
      simp [digitsOf, hc]

/-- The digits of the query are the next digits of the name. -/
theorem matchDigits_eq_some {digits : List Nat} {name rest : List Char}
    (h : matchDigits digits name = some rest) : digitsOf name = digits ++ digitsOf rest := by
  induction digits generalizing name with
  | nil =>
    obtain rfl : name = rest := by simpa [matchDigits] using h
    rfl
  | cons digit digits ih =>
    rw [matchDigits] at h
    split at h
    · cases h
    · next c tail heq =>
      have hc : isNumber c = true := by
        have := List.head_dropWhile_not (!isNumber ·) (by rw [heq]; simp)
        simpa [heq] using this
      split at h
      · next hdigit =>
        rw [← digitsOf_dropWhile, heq, List.cons_append, ← ih h, ← hdigit]
        simp [digitsOf, hc]
      · cases h

theorem digits_prefix_of_attemptMatch {event : Nat} {name : List Char} (h : attemptMatch name event ≠ 0) :
    digits event <+: digitsOf name := by
  rw [attemptMatch] at h
  split at h
  · exact absurd rfl h
  · next rest hmatch => exact ⟨digitsOf rest, (matchDigits_eq_some hmatch).symm⟩

/-- Without a match for any number of the name there is no match of the name. -/
theorem matchName_best {event : Nat} {inNumber : Bool} {name : List Char} {names : NameMatch}
    (hnone : ∀ tail, tail <:+ name → attemptMatch tail event = 0) (hbest : names.best = 0) :
    (matchName event inNumber name names).best = 0 := by
  induction name generalizing inNumber names with
  | nil => exact hbest
  | cons c name ih =>
    have htail : ∀ tail, tail <:+ name → attemptMatch tail event = 0 :=
      fun tail htail => hnone tail (htail.trans (List.suffix_cons c name))
    rw [matchName]
    split
    · refine ih htail ?_
      split
      · exact hbest
      · rw [hnone _ (List.suffix_refl _)]
        unfold NameMatch.update
        by_cases hfirst : names.first = 0xff <;> simp [hfirst, hbest]
    · exact ih htail hbest

theorem bestNameMatch_eq_zero {event : Nat} {name : List Char}
    (hnone : ¬ digits event <:+: digitsOf name) : bestNameMatch event name = 0 := by
  have hbest : (matchName event false name ⟨0xff, 0⟩).best = 0 := by
    refine matchName_best (fun tail htail => ?_) rfl
    by_contra hmatch
    obtain ⟨front, rfl⟩ := htail
    refine hnone ((digits_prefix_of_attemptMatch hmatch).isInfix.trans ?_)
    rw [digitsOf, digitsOf, List.filter_append, List.map_append]
    exact (List.suffix_append _ _).isInfix
  simp only [bestNameMatch, hbest, ite_self]

/-- A query with digits matches a train by its address, by the first digits of its address, or by
its name. -/
theorem matchQueryToNode_eq_zero {event : Nat} {train : TrainDbEntry} (hnotTrain : event ≠ isTrainEvent)
    (haddress : suppliedAddress event ≠ train.legacyAddress)
    (hstart : isAddressPrefix (suppliedAddress event) train.legacyAddress
      (train.legacyAddress / 10) = false)
    (hdigits : digits event ≠ []) (hname : bestNameMatch event train.trainName = 0) :
    matchQueryToNode event train = 0 := by
  simp [matchQueryToNode, queryToAddress, hnotTrain, haddress, hstart, hdigits, hname]

theorem digits_le {event digit : Nat} (h : digit ∈ digits event) : digit ≤ 9 := by
  simpa using (List.mem_filter.mp h).2

/-- An address of more than sixteen bits has at least five digits. -/
theorem four_lt_length_digits {event : Nat} (h : 2 ^ 16 ≤ suppliedAddress event) :
    4 < (digits event).length := by
  have hvalue := valueOf_lt fun digit (hdigit : digit ∈ digits event) => digits_le hdigit
  rw [← suppliedAddress_eq] at hvalue
  by_contra hshort
  have hpow : 10 ^ (digits event).length ≤ 10 ^ 4 :=
    Nat.pow_le_pow_right (by decide) (Nat.le_of_not_lt hshort)
  omega

/-- The name of a train has at most five digits: they would have to be the digits of the query. -/
theorem name_not_matched {names : TrainAddressType → Nat → List Char} (hnames : NamesAddress names)
    {event : Nat} (hlarge : 2 ^ 16 ≤ suppliedAddress event) (type : TrainAddressType) {address : Nat}
    (haddress : address < 2 ^ 16) : ¬ digits event <:+: digitsOf (names type address) := by
  intro hinfix
  have hquery := four_lt_length_digits hlarge
  have hlength := hinfix.length_le
  rcases hnames type address with hname | ⟨hshort, hname⟩
  · rw [hname] at hinfix hlength
    have hfive : (decimal address).length ≤ 5 := length_decimal (by decide) (by omega)
    have heq : digits event = decimal address := hinfix.eq_of_length_le (by omega)
    rw [suppliedAddress_eq, heq, valueOf_decimal] at hlarge
    omega
  · have hthree : (decimal address).length ≤ 3 := length_decimal (by decide) (by omega)
    rw [hname, List.length_cons] at hlength
    omega

theorem not_match_allocated {names : TrainAddressType → Nat → List Char} (hnames : NamesAddress names)
    {event : Nat} (hfind : isFindEvent event) (hlarge : 2 ^ 16 ≤ suppliedAddress event)
    (mode : DccMode) :
    matchQueryToNode event (dccTrainDbEntry names mode (suppliedAddress event)) = 0 := by
  have hmod : suppliedAddress event % 2 ^ 16 < 2 ^ 16 := Nat.mod_lt _ (by decide)
  have hnotTrain : event ≠ isTrainEvent := by
    rintro rfl
    exact absurd hfind (by decide)
  have hdiffers : suppliedAddress event ≠ suppliedAddress event % 2 ^ 16 := by omega
  have hnoPrefix : isAddressPrefix (suppliedAddress event) (suppliedAddress event % 2 ^ 16)
      (suppliedAddress event % 2 ^ 16 / 10) = false := by
    rw [← Bool.not_eq_true]
    intro hstart
    have := isAddressPrefix_le hstart
    omega
  have hdigits : digits event ≠ [] := by
    intro hnil
    have := four_lt_length_digits hlarge
    rw [hnil] at this
    simp at this
  have hname := bestNameMatch_eq_zero
    (name_not_matched hnames hlarge (dccModeToAddressType mode (suppliedAddress event % 2 ^ 16)) hmod)
  exact matchQueryToNode_eq_zero hnotTrain hdiffers hnoPrefix hdigits hname

/-! ## Repeated queries -/

theorem iterationDone_eq_some {names : TrainAddressType → Nat → List Char} {build : Build} {event : Nat}
    {trains : List TrainDbEntry} {entry : TrainDbEntry}
    (h : iterationDone names build event trains = some entry) :
    isSupported build (queryToMode event) = true ∧
      entry = dccTrainDbEntry names (queryToMode event) (suppliedAddress event) := by
  rw [iterationDone] at h
  split at h
  · cases h
  · split at h
    · rw [allocateNode] at h
      split at h
      · next hsupported => exact ⟨hsupported, (Option.some.inj h).symm⟩
      · cases h
    · cases h

/-- The names that the tests of the search protocol show: `13M`, `18S`, `018L` and `183`. -/
def legacyName (type : TrainAddressType) (address : Nat) : List Char :=
  let number := (decimal address).map Nat.digitChar
  match type with
  | .dccShortAddress => number ++ ['S']
  | .dccLongAddress => if address < 128 then '0' :: number ++ ['L'] else number
  | .mm => number ++ ['M']
  | _ => number

theorem digitsOf_number {digits : List Nat} (h : ∀ digit ∈ digits, digit < 10) :
    digitsOf (digits.map Nat.digitChar) = digits := by
  induction digits with
  | nil => rfl
  | cons digit digits ih =>
    have hdigit : ∀ digit < 10, isNumber digit.digitChar = true ∧
        digit.digitChar.toNat - '0'.toNat = digit := by decide
    obtain ⟨hnumber, hvalue⟩ := hdigit digit (h digit (by simp))
    have htail := ih fun other hother => h other (by simp [hother])
    rw [digitsOf] at htail ⊢
    rw [List.map_cons, List.filter_cons_of_pos hnumber, List.map_cons, hvalue, htail]

theorem legacyName_namesAddress : NamesAddress legacyName := by
  intro type address
  have hdecimal : digitsOf ((decimal address).map Nat.digitChar) = decimal address := by
    refine digitsOf_number fun digit hdigit => ?_
    unfold decimal at hdigit
    split at hdigit
    · simp_all
    · exact Nat.digits_lt_base (by decide) (List.mem_reverse.mp hdigit)
  have happend : ∀ (name rest : List Char), digitsOf (name ++ rest) = digitsOf name ++ digitsOf rest :=
    fun name rest => by simp [digitsOf]
  have hletters : digitsOf ['S'] = [] ∧ digitsOf ['L'] = [] ∧ digitsOf ['M'] = [] := by decide
  have hzero : ∀ name, digitsOf ('0' :: name) = 0 :: digitsOf name := fun name => by
    rw [digitsOf, List.filter_cons_of_pos (by decide)]
    rfl
  cases type with
  | dccLongAddress =>
    by_cases hshort : address < 128
    · exact .inr ⟨hshort, by simp [legacyName, hshort, hzero, happend, hdecimal, hletters]⟩
    · exact .inl (by simp [legacyName, hshort, hdecimal])
  | dccShortAddress => exact .inl (by simp [legacyName, happend, hdecimal, hletters])
  | mm => exact .inl (by simp [legacyName, happend, hdecimal, hletters])
  | unspecified => exact .inl hdecimal
  | unsupported => exact .inl hdecimal

/-- A query for 415, with `ALLOCATE`. -/
def query415 : Nat := 0x090099FFFFF41580

/-- A query for 065539, with `ALLOCATE`. -/
def query65539 : Nat := 0x090099FF06553980

end OpenmrnCue.CommandStation.FindProtocolDefs
