import Mathlib.Data.Nat.Digits.Lemmas
import Mathlib.Data.List.Infix
import Mathlib.Tactic.Linarith
import Mathlib.Tactic.Ring

/-! The queries of the train search protocol: `TrainDbDefs.hxx` and `FindProtocolDefs.cxx`.  A query
is an event ID whose lower half has six nibbles of digits and a byte of flags and drive mode.  It is
read as an address and a drive mode, and it is matched to the trains of the database. -/

namespace OpenmrnCue.CommandStation

/-- `DccMode`: five bits. -/
abbrev DccMode := Nat

namespace DccMode

def default : DccMode := 0
def fakeDrive : DccMode := 1
def olcbUser : DccMode := 1
def marklinAny : DccMode := 0b00100
def marklinAnyMask : Nat := 0b11100
def marklinDefault : DccMode := marklinAny
def marklinOld : DccMode := marklinAny ||| 1
def marklinNew : DccMode := marklinAny ||| 2
def marklinTwoaddr : DccMode := marklinAny ||| 3
def dccAny : DccMode := 0b01000
def dccAnyMask : Nat := 0b11000
def dccDefault : DccMode := dccAny
def dccLongAddress : DccMode := 0b00100
def dccSsMask : Nat := 0b00011
def dcc14 : DccMode := dccAny ||| 1
def dcc28 : DccMode := dccAny ||| 2
def dcc128 : DccMode := dccAny ||| 3
def protocolMask : Nat := 0b11111

end DccMode

/-- `dcc::TrainAddressType`. -/
inductive TrainAddressType where
  | dccShortAddress
  | dccLongAddress
  | mm
  | unspecified
  | unsupported
deriving DecidableEq, Repr

open DccMode

/-- `dcc_mode_to_address_type`. -/
def dccModeToAddressType (mode : DccMode) (address : Nat) : TrainAddressType :=
  if mode = default then .unspecified
  else if mode &&& marklinAnyMask = marklinAny then .mm
  else if mode &&& dccAnyMask = dccAny then
    if mode &&& dccLongAddress ≠ 0 ∨ 128 ≤ address then .dccLongAddress else .dccShortAddress
  else .unsupported

/-- `dcc_mode_to_protocol`. -/
def dccModeToProtocol (mode : DccMode) : DccMode :=
  if mode = default ∨ mode = olcbUser then mode
  else if mode &&& marklinAnyMask = marklinAny then marklinAny
  else if mode &&& dccAnyMask = dccAny then dccAny
  else mode

namespace FindProtocolDefs

/-- `TRAIN_FIND_BASE`, `TRAIN_FIND_MASK` and the event `IS_TRAIN_EVENT`. -/
def trainFindBase : Nat := 0x090099FF00000000
def trainFindMask : Nat := 32
def isTrainEvent : Nat := 0x0101000000000303

/-- The flags of a query, and of the result of a match. -/
def allocate : Nat := 0x80
def exact : Nat := 0x40
def addressOnly : Nat := 0x20
def matchAny : Nat := 0x01

/-- `is_find_event`. -/
def isFindEvent (event : Nat) : Prop := event >>> trainFindMask = trainFindBase >>> trainFindMask

instance (event : Nat) : Decidable (isFindEvent event) := inferInstanceAs (Decidable (_ = _))

/-- A flag of a query is set. -/
def HasFlag (event flag : Nat) : Prop := event &&& flag ≠ 0

instance (event flag : Nat) : Decidable (HasFlag event flag) := inferInstanceAs (Decidable (_ ≠ _))

/-- The nibbles of a query, in the order in which the loops over `shift` read them. -/
def nibbles (event : Nat) : List Nat :=
  [28, 24, 20, 16, 12, 8].map fun shift => event >>> shift &&& 0xf

/-- The nibbles that are digits; the loops pass over the others. -/
def digits (event : Nat) : List Nat := (nibbles event).filter (· ≤ 9)

/-- `DEFAULT_DRIVE_MODE`, `DEFAULT_MARKLIN_DRIVE_MODE` and `DEFAULT_DCC_DRIVE_MODE`. -/
def defaultDriveMode : DccMode := dcc128
def defaultMarklinDriveMode : DccMode := marklinNew
def defaultDccDriveMode : DccMode := dcc128

/-- `match_event_to_drive_mode`. -/
def matchEventToDriveMode (event : Nat) (mode : DccMode) : Bool :=
  let reqMode := event &&& protocolMask
  if reqMode = default then true
  else if mode = default then true
  else dccModeToProtocol mode = dccModeToProtocol reqMode

/-- One round of the loop of `query_to_address`, on `supplied_address` and `has_prefix_zero`. -/
def readNibble (state : Nat × Bool) (nibble : Nat) : Nat × Bool :=
  let prefixZero := state.2 || (nibble == 0 && state.1 == 0)
  if nibble ≤ 9 then (state.1 * 10 + nibble, prefixZero) else (state.1, prefixZero)

/-- `supplied_address` and `has_prefix_zero` after the loop. -/
def suppliedAddress (event : Nat) : Nat := ((nibbles event).foldl readNibble (0, false)).1
def hasPrefixZero (event : Nat) : Bool := ((nibbles event).foldl readNibble (0, false)).2

/-- The drive mode for the allocation of a query. -/
def allocateDriveType (driveType : DccMode) : DccMode :=
  if driveType = default then defaultDriveMode
  else if driveType = marklinDefault then defaultMarklinDriveMode
  else if driveType = dccDefault then defaultDccDriveMode
  else if driveType = dccDefault ||| dccLongAddress then
    driveType ||| (defaultDccDriveMode &&& dccSsMask)
  else driveType

/-- A leading zero asks for a long address. -/
def longAddressDriveType (prefixZero : Bool) (driveType : DccMode) : DccMode :=
  if prefixZero ∧ (driveType &&& dccAnyMask = dccAny ∨ driveType = default) then
    driveType ||| (dccDefault ||| dccLongAddress)
  else driveType

/-- `query_to_address`: the drive mode. -/
def queryToMode (event : Nat) : DccMode :=
  let driveType := event &&& protocolMask
  let driveType := if HasFlag event allocate then allocateDriveType driveType else driveType
  longAddressDriveType (hasPrefixZero event) driveType

/-- `query_to_address`: the drive mode and the address. -/
def queryToAddress (event : Nat) : DccMode × Nat := (queryToMode event, suppliedAddress event)

/-- `is_number`. -/
def isNumber (c : Char) : Bool := '0' ≤ c ∧ c ≤ '9'

/-- The loop of `attempt_match` over the digits of the query: what is left of the name when all of
them are matched.  At the end of the name the character that is read is no digit. -/
def matchDigits : List Nat → List Char → Option (List Char)
  | [], name => some name
  | digit :: digits, name =>
    match name.dropWhile (!isNumber ·) with
    | [] => none
    | c :: name => if c.toNat - '0'.toNat = digit then matchDigits digits name else none

/-- `attempt_match`, on the name from some position on. -/
def attemptMatch (name : List Char) (event : Nat) : Nat :=
  match matchDigits (digits event) name with
  | none => 0
  | some rest =>
    if digits event = [] then 0
    else if rest.any isNumber then if HasFlag event exact then 0 else matchAny
    else exact ||| matchAny

/-- `first_name_match` and `best_name_match`, with `0xff` for no match so far. -/
structure NameMatch where
  first : Nat
  best : Nat
deriving DecidableEq, Repr

/-- One number of the name. -/
def NameMatch.update (names : NameMatch) (current : Nat) : NameMatch :=
  let names := if names.first = 0xff then ⟨current, current⟩ else names
  if (names.best = 0 ∧ current ≠ 0) ∨ current &&& exact ≠ 0 then { names with best := current }
  else names

/-- The loop over the numbers of the name; `inNumber` says that the character before was part of a
number. -/
def matchName (event : Nat) : Bool → List Char → NameMatch → NameMatch
  | _, [], names => names
  | inNumber, c :: name, names =>
    if isNumber c then
      matchName event true name
        (if inNumber then names else names.update (attemptMatch (c :: name) event))
    else matchName event false name names

/-- The best match of a name: none without a number. -/
def bestNameMatch (event : Nat) (name : List Char) : Nat :=
  let names := matchName event false name ⟨0xff, 0⟩
  if names.first = 0xff then 0 else names.best

/-- The loop for `has_address_prefix_match`: the number is that of some first digits of `address`.
-/
def isAddressPrefix (supplied : Nat) : Nat → Nat → Bool
  | 0, _ => false
  | fuel + 1, address =>
    if address = 0 then false
    else if address = supplied then true
    else isAddressPrefix supplied fuel (address / 10)

/-- What `match_query_to_node` reads of a train. -/
structure TrainDbEntry where
  legacyAddress : Nat
  legacyDriveMode : DccMode
  trainName : List Char
deriving DecidableEq, Repr

/-- `match_query_to_node`. -/
def matchQueryToNode (event : Nat) (train : TrainDbEntry) : Nat :=
  if event = isTrainEvent then matchAny ||| addressOnly ||| exact
  else
    let (mode, supplied) := queryToAddress event
    let desired := dccModeToAddressType mode supplied
    let actual := dccModeToAddressType train.legacyDriveMode train.legacyAddress
    let addressTypeMatch := actual = .unsupported ∨ desired = .unspecified ∨ desired = actual
    if !matchEventToDriveMode event train.legacyDriveMode then 0
    else if supplied = train.legacyAddress ∧ addressTypeMatch then
      matchAny ||| addressOnly ||| exact
    else
      let addressPrefixMatch : Bool := ¬ HasFlag event exact ∧ addressTypeMatch ∧
        isAddressPrefix supplied train.legacyAddress (train.legacyAddress / 10)
      if mode ≠ default ∧ HasFlag event exact ∧ HasFlag event allocate ∧
          HasFlag event addressOnly ∧ desired ≠ actual then 0
      else if HasFlag event addressOnly then
        if HasFlag event exact ∨ !addressPrefixMatch then 0 else matchAny ||| addressOnly
      else if digits event = [] then if HasFlag event exact then 0 else matchAny
      else
        let best := bestNameMatch event train.trainName
        if best &&& exact = 0 ∧ addressPrefixMatch ∧ ¬ HasFlag event exact then
          matchAny ||| addressOnly
        else if HasFlag event exact ∧ best &&& exact = 0 then 0
        else best

/-- The number that digits stand for. -/
def valueOf (digits : List Nat) : Nat := digits.foldl (fun value digit => value * 10 + digit) 0

theorem foldl_value (digits : List Nat) (value : Nat) :
    digits.foldl (fun value digit => value * 10 + digit) value =
      value * 10 ^ digits.length + valueOf digits := by
  unfold valueOf
  induction digits generalizing value with
  | nil => simp
  | cons digit digits ih =>
    rw [List.foldl_cons, ih, List.foldl_cons, ih (0 * 10 + digit), List.length_cons, Nat.pow_succ]
    ring

theorem valueOf_lt {digits : List Nat} (h : ∀ digit ∈ digits, digit ≤ 9) :
    valueOf digits < 10 ^ digits.length := by
  induction digits with
  | nil => simp [valueOf]
  | cons digit digits ih =>
    have hdigit := h digit (by simp)
    have hrest := ih fun other hother => h other (by simp [hother])
    rw [valueOf, List.foldl_cons, foldl_value, List.length_cons, Nat.pow_succ]
    nlinarith [Nat.mul_le_mul_right (10 ^ digits.length) hdigit]

theorem suppliedAddress_eq (event : Nat) : suppliedAddress event = valueOf (digits event) := by
  have hloop : ∀ (nibbles : List Nat) (state : Nat × Bool), (nibbles.foldl readNibble state).1 =
      (nibbles.filter (· ≤ 9)).foldl (fun value digit => value * 10 + digit) state.1 := by
    intro nibbles
    induction nibbles with
    | nil => simp
    | cons nibble nibbles ih =>
      intro state
      rw [List.foldl_cons, ih, readNibble]
      by_cases hdigit : nibble ≤ 9
      · rw [if_pos hdigit, List.filter_cons_of_pos (by simpa using hdigit), List.foldl_cons]
      · rw [if_neg hdigit, List.filter_cons_of_neg (by simpa using hdigit)]
  exact hloop (nibbles event) (0, false)

end FindProtocolDefs

end OpenmrnCue.CommandStation
