import Mathlib.Data.List.Destutter
import OpenmrnCue.CommandStation.QueryMatching

/-! The queries that a throttle makes: `address_to_query` puts an address into the nibbles from the
last to the first, and `input_to_event` puts what a user has typed into them from the first to the
last.  Both are read back by `query_to_address`. -/

namespace OpenmrnCue.CommandStation.FindProtocolDefs

open DccMode

/-- `TRAIN_FIND_MASK_LOW`. -/
def trainFindMaskLow : Nat := 8

/-! ### Addresses -/

/-- The loop of `address_to_query` over the digits of the address, on `event` and `shift`. -/
def putAddress (event shift address : Nat) : Nat × Nat :=
  if address = 0 then (event, shift)
  else putAddress (event ||| (address % 10) <<< shift) (shift + 4) (address / 10)
termination_by address

/-- The loop of `address_to_query` over the nibbles that are left. -/
def putBlanks (event shift : Nat) : Nat :=
  if shift < trainFindMask then putBlanks (event ||| 0xF <<< shift) (shift + 4) else event
termination_by trainFindMask - shift

/-- `address_to_query`, for an address of at most six digits. -/
def addressToQuery (address : Nat) (isExact : Bool) (mode : DccMode) : Nat :=
  let (event, shift) := putAddress trainFindBase trainFindMaskLow address
  let event := putBlanks event shift
  let event := if isExact then event ||| exact else event
  event ||| (mode &&& protocolMask)

theorem low_nibble {low shift nibble : Nat} (hlow : low < 2 ^ shift) (hnibble : nibble < 2 ^ 4) :
    low + nibble * 2 ^ shift < 2 ^ (shift + 4) := by
  have hmul : nibble * 2 ^ shift + 2 ^ shift ≤ 2 ^ (shift + 4) := by
    rw [pow_add, ← Nat.succ_mul, Nat.mul_comm (2 ^ shift)]
    exact Nat.mul_le_mul_right _ hnibble
  omega

/-- A nibble above what is there, below the base. -/
theorem or_nibble {base low shift nibble : Nat} (hlow : low < 2 ^ shift) (hnibble : nibble < 2 ^ 4)
    (hshift : shift + 4 ≤ 32) : (2 ^ 32 * base + low) ||| nibble <<< shift =
      2 ^ 32 * base + (low + nibble * 2 ^ shift) := by
  have hpow : 2 ^ (shift + 4) ≤ 2 ^ 32 := Nat.pow_le_pow_right (by decide) hshift
  have hsum := low_nibble hlow hnibble
  have hor : low ||| nibble <<< shift = low + nibble * 2 ^ shift := by
    rw [Nat.or_comm, Nat.shiftLeft_eq, Nat.mul_comm nibble, ← Nat.two_pow_add_eq_or_of_lt hlow,
      Nat.add_comm]
  rw [Nat.two_pow_add_eq_or_of_lt (by omega), Nat.or_assoc, hor,
    ← Nat.two_pow_add_eq_or_of_lt (by omega)]

theorem putAddress_eq (base : Nat) {low shift address : Nat} (hlow : low < 2 ^ shift)
    (hshift : shift + 4 * (Nat.digits 10 address).length ≤ 32) :
    putAddress (2 ^ 32 * base + low) shift address =
      (2 ^ 32 * base + (low + Nat.ofDigits 16 (Nat.digits 10 address) * 2 ^ shift),
        shift + 4 * (Nat.digits 10 address).length) := by
  induction address using Nat.strong_induction_on generalizing low shift with
  | _ address ih =>
    rw [putAddress]
    by_cases hzero : address = 0
    · subst hzero
      simp
    · have hdigits : Nat.digits 10 address = (address % 10) :: Nat.digits 10 (address / 10) :=
        Nat.digits_def' (by decide) (Nat.pos_of_ne_zero hzero)
      have hnibble : address % 10 < 2 ^ 4 := by omega
      rw [hdigits, List.length_cons] at hshift
      rw [if_neg hzero, or_nibble hlow hnibble (by omega),
        ih _ (by omega) (low_nibble hlow hnibble) (by omega), hdigits, List.length_cons,
        Nat.ofDigits_cons]
      refine Prod.ext ?_ ?_
      · simp only [Nat.cast_id, pow_add]
        ring
      · simp only
        ring

theorem putBlanks_eq (base count : Nat) {low shift : Nat} (hlow : low < 2 ^ shift)
    (hshift : shift + 4 * count = 32) : putBlanks (2 ^ 32 * base + low) shift =
      2 ^ 32 * base + (low + Nat.ofDigits 16 (List.replicate count 0xF) * 2 ^ shift) := by
  induction count generalizing low shift with
  | zero =>
    have hend : ¬ shift < trainFindMask := by rw [trainFindMask]; omega
    rw [putBlanks, if_neg hend]
    simp
  | succ count ih =>
    have hnext : shift < trainFindMask := by rw [trainFindMask]; omega
    rw [putBlanks, if_pos hnext, or_nibble hlow (by decide) (by omega),
      ih (low_nibble hlow (by decide)) (by omega), List.replicate_succ, Nat.ofDigits_cons]
    simp only [Nat.cast_ofNat, pow_add]
    ring

/-- A nibble that comes in first and then more of them. -/
theorem drop_pushed (query nibble : Nat) (nibbles : List Nat) :
    (((queryNibbles query).tail ++ [nibble]) ++ nibbles).drop nibbles.length =
      (queryNibbles query ++ nibble :: nibbles).drop (nibble :: nibbles).length := by
  have hcons : queryNibbles query = query / 2 ^ 20 % 2 ^ 4 :: (queryNibbles query).tail := rfl
  rw [hcons, List.length_cons, List.cons_append, List.drop_succ_cons, List.tail_cons,
    List.append_assoc]
  rfl

/-- What comes in from below pushes out what is there. -/
theorem queryNibbles_foldl (query : Nat) {nibbles : List Nat}
    (h : ∀ nibble ∈ nibbles, nibble < 2 ^ 4) :
    queryNibbles (nibbles.foldl (fun query nibble => query * 2 ^ 4 + nibble) query) =
      (queryNibbles query ++ nibbles).drop nibbles.length := by
  induction nibbles generalizing query with
  | nil => simp
  | cons nibble nibbles ih =>
    obtain ⟨hfirst, hrest⟩ := List.forall_mem_cons.mp h
    rw [List.foldl_cons, ih _ hrest, queryNibbles_push _ hfirst, drop_pushed]

theorem queryNibbles_ofDigits {nibbles : List Nat} (h : ∀ nibble ∈ nibbles, nibble < 2 ^ 4)
    (hlength : nibbles.length = 6) :
    queryNibbles (Nat.ofDigits 16 nibbles) = nibbles.reverse := by
  have hfold : Nat.ofDigits 16 nibbles =
      nibbles.reverse.foldl (fun query nibble => query * 2 ^ 4 + nibble) 0 := by
    rw [List.foldl_reverse, Nat.ofDigits_eq_foldr]
    simp only [Nat.cast_id, Nat.cast_ofNat, Nat.add_comm, Nat.mul_comm, Nat.reducePow]
  rw [hfold, queryNibbles_foldl _ (by simpa using h), List.length_reverse, hlength]
  rfl

/-- The nibbles of an address from the last to the first, and the blanks that are left. -/
def addressNibbles (address : Nat) : List Nat :=
  Nat.digits 10 address ++ List.replicate (6 - (Nat.digits 10 address).length) 0xF

/-- The flags and the drive mode of a query. -/
def queryFlags (isExact : Bool) (mode : DccMode) : Nat :=
  (if isExact then exact else 0) ||| (mode &&& protocolMask)

theorem queryFlags_lt (isExact : Bool) (mode : DccMode) : queryFlags isExact mode < 2 ^ 8 := by
  refine Nat.or_lt_two_pow ?_ (Nat.lt_of_le_of_lt Nat.and_le_right (by decide))
  cases isExact <;> decide

theorem addressNibbles_lt (address : Nat) : ∀ nibble ∈ addressNibbles address, nibble < 2 ^ 4 := by
  intro nibble hmem
  rcases List.mem_append.mp hmem with hdigit | hblank
  · exact Nat.lt_trans (Nat.digits_lt_base (by decide) hdigit) (by decide)
  · rw [List.eq_of_mem_replicate hblank]
    decide

/-- A zero behind another digit is no leading zero. -/
theorem foldl_readNibble (nibbles : List Nat) {state : Nat × Bool} (h : state.1 ≠ 0) :
    (nibbles.foldl readNibble state).2 = state.2 := by
  induction nibbles generalizing state with
  | nil => rfl
  | cons nibble nibbles ih =>
    have hsecond : (readNibble state nibble).2 = state.2 := by
      unfold readNibble
      split <;> simp [h]
    have hfirst : (readNibble state nibble).1 ≠ 0 := by
      unfold readNibble
      split
      · simp only
        omega
      · exact h
    rw [List.foldl_cons, ih hfirst, hsecond]

section AddressToQuery

variable {address : Nat} (h : address < 10 ^ 6) (isExact : Bool) (mode : DccMode)

include h

theorem length_digits : (Nat.digits 10 address).length ≤ 6 :=
  (Nat.digits_length_le_iff (by decide) address).mpr h

theorem length_addressNibbles : (addressNibbles address).length = 6 := by
  have := length_digits h
  simp only [addressNibbles, List.length_append, List.length_replicate]
  omega

theorem addressToQuery_eq : addressToQuery address isExact mode =
    (2 ^ 32 * 0x090099FF + Nat.ofDigits 16 (addressNibbles address) * 2 ^ 8) |||
      queryFlags isExact mode := by
  have hlength := length_digits h
  have hput : putAddress trainFindBase trainFindMaskLow address =
      (2 ^ 32 * 0x090099FF + Nat.ofDigits 16 (Nat.digits 10 address) * 2 ^ 8,
        8 + 4 * (Nat.digits 10 address).length) := by
    have := putAddress_eq 0x090099FF (show 0 < 2 ^ 8 by decide)
      (show 8 + 4 * (Nat.digits 10 address).length ≤ 32 by omega)
    rw [Nat.zero_add] at this
    exact this
  have hlow : Nat.ofDigits 16 (Nat.digits 10 address) * 2 ^ 8 <
      2 ^ (8 + 4 * (Nat.digits 10 address).length) := by
    have hdigits : Nat.ofDigits 16 (Nat.digits 10 address) <
        16 ^ (Nat.digits 10 address).length :=
      Nat.ofDigits_lt_base_pow_length (by decide) fun digit hdigit =>
        Nat.lt_trans (Nat.digits_lt_base (by decide) hdigit) (by decide)
    rw [pow_add, pow_mul, Nat.mul_comm]
    exact Nat.mul_lt_mul_of_pos_left hdigits (by decide)
  have hblanks := putBlanks_eq 0x090099FF (6 - (Nat.digits 10 address).length) hlow (by omega)
  rw [addressToQuery, hput]
  simp only
  rw [hblanks, addressNibbles, Nat.ofDigits_append]
  have hsum : Nat.ofDigits 16 (Nat.digits 10 address) * 2 ^ 8 +
      Nat.ofDigits 16 (List.replicate (6 - (Nat.digits 10 address).length) 0xF) *
        2 ^ (8 + 4 * (Nat.digits 10 address).length) =
      (Nat.ofDigits 16 (Nat.digits 10 address) + 16 ^ (Nat.digits 10 address).length *
        Nat.ofDigits 16 (List.replicate (6 - (Nat.digits 10 address).length) 0xF)) * 2 ^ 8 := by
    rw [pow_add, pow_mul]
    ring
  rw [hsum, queryFlags]
  cases isExact with
  | false => simp
  | true => rw [if_pos rfl, if_pos rfl, Nat.or_assoc]

/-- The nibbles that `address_to_query` puts. -/
theorem nibbles_addressToQuery :
    nibbles (addressToQuery address isExact mode) = (addressNibbles address).reverse := by
  have hquery : (2 ^ 32 * 0x090099FF + Nat.ofDigits 16 (addressNibbles address) * 2 ^ 8) / 2 ^ 8 %
      2 ^ 24 = Nat.ofDigits 16 (addressNibbles address) % 2 ^ 24 := by omega
  rw [addressToQuery_eq h, nibbles_or (queryFlags_lt isExact mode), nibbles_eq,
    ← queryNibbles_mod, hquery, queryNibbles_mod,
    queryNibbles_ofDigits (addressNibbles_lt address) (length_addressNibbles h)]

theorem isFindEvent_addressToQuery : isFindEvent (addressToQuery address isExact mode) := by
  have hpacked : Nat.ofDigits 16 (addressNibbles address) < 16 ^ 6 :=
    length_addressNibbles h ▸
      Nat.ofDigits_lt_base_pow_length (by decide) (addressNibbles_lt address)
  rw [addressToQuery_eq h]
  refine isFindEvent_or ?_ (queryFlags_lt isExact mode)
  rw [isFindEvent, Nat.shiftRight_eq_div_pow]
  show _ / 2 ^ 32 = 0x090099FF
  omega

theorem and_addressToQuery {mask : Nat} (hmask : mask < 2 ^ 8) :
    addressToQuery address isExact mode &&& mask = queryFlags isExact mode &&& mask := by
  have hzero : (2 ^ 32 * 0x090099FF + Nat.ofDigits 16 (addressNibbles address) * 2 ^ 8) &&& mask =
      0 := by
    rw [and_low _ hmask]
    have hlow : (2 ^ 32 * 0x090099FF + Nat.ofDigits 16 (addressNibbles address) * 2 ^ 8) % 2 ^ 8 =
        0 := by omega
    rw [hlow, Nat.zero_and]
  rw [addressToQuery_eq h, Nat.and_or_distrib_right, hzero, Nat.zero_or]

theorem and_addressToQuery_mode :
    addressToQuery address isExact mode &&& protocolMask = mode &&& protocolMask := by
  rw [and_addressToQuery h _ _ (by decide), queryFlags, Nat.and_or_distrib_right, Nat.and_assoc,
    Nat.and_self]
  cases isExact <;> simp [exact, protocolMask]

theorem digits_addressToQuery :
    digits (addressToQuery address isExact mode) = (Nat.digits 10 address).reverse := by
  have hdigits : (Nat.digits 10 address).filter (· ≤ 9) = Nat.digits 10 address := by
    refine List.filter_eq_self.mpr fun digit hdigit => ?_
    have := Nat.digits_lt_base (by decide) hdigit
    simpa using Nat.le_of_lt_succ this
  rw [digits, nibbles_addressToQuery h, addressNibbles, List.filter_reverse, List.filter_append,
    hdigits]
  simp

/-- The first digit of an address is not zero. -/
theorem hasPrefixZero_addressToQuery :
    hasPrefixZero (addressToQuery address isExact mode) = false := by
  have hblanks : ∀ count, (List.replicate count 0xF).foldl readNibble (0, false) = (0, false) := by
    intro count
    induction count with
    | zero => rfl
    | succ count ih => exact ih
  rw [hasPrefixZero, nibbles_addressToQuery h, addressNibbles, List.reverse_append,
    List.reverse_replicate, List.foldl_append, hblanks]
  cases hdigits : (Nat.digits 10 address).reverse with
  | nil => rfl
  | cons digit rest =>
    have hzero : address ≠ 0 := by
      rintro rfl
      simp at hdigits
    have hne : Nat.digits 10 address ≠ [] := Nat.digits_ne_nil_iff_ne_zero.mpr hzero
    have hlast : digit = (Nat.digits 10 address).getLast hne := by
      have := List.getLast?_reverse (l := (Nat.digits 10 address).reverse)
      rw [List.reverse_reverse, hdigits, List.getLast?_eq_some_getLast hne] at this
      exact (Option.some.inj this).symm
    have hpos : digit ≠ 0 := hlast ▸ Nat.getLast_digit_ne_zero 10 hzero
    have hdigit : digit < 10 :=
      Nat.digits_lt_base (by decide) (hlast ▸ List.getLast_mem hne)
    rw [List.foldl_cons, readNibble, if_pos (by omega), foldl_readNibble rest (by simpa using hpos)]
    simp [hpos]

/-- The query is read back as the address and the drive mode. -/
theorem queryToAddress_addressToQuery :
    queryToAddress (addressToQuery address isExact mode) = (mode &&& protocolMask, address) := by
  have hallocate : ¬ HasFlag (addressToQuery address isExact mode) allocate := by
    rw [HasFlag, and_addressToQuery h _ _ (by decide), queryFlags, Nat.and_or_distrib_right,
      Nat.and_assoc]
    cases isExact <;> simp [exact, allocate, protocolMask]
  rw [queryToAddress, suppliedAddress_eq, digits_addressToQuery h, valueOf_reverse,
    Nat.ofDigits_digits, queryToMode, and_addressToQuery_mode h,
    if_neg hallocate, hasPrefixZero_addressToQuery h]
  rfl

/-- The query has the address of the train. -/
theorem matchQueryToNode_addressToQuery (name : List Char) :
    matchQueryToNode (addressToQuery address isExact mode)
      ⟨address, mode &&& protocolMask, name⟩ = matchAny ||| addressOnly ||| exact := by
  have hread := queryToAddress_addressToQuery h isExact mode
  have haddress : AddressMatch (addressToQuery address isExact mode)
      ⟨address, mode &&& protocolMask, name⟩ := by
    obtain ⟨hmode, hsupplied⟩ := Prod.mk.inj hread
    rw [AddressMatch, AddressTypeMatch, hmode, hsupplied]
    exact ⟨rfl, .inr (.inr rfl)⟩
  have hdriveMode : matchEventToDriveMode (addressToQuery address isExact mode)
      (mode &&& protocolMask) = true := by
    rw [matchEventToDriveMode, and_addressToQuery_mode h]
    simp
  rw [matchQueryToNode_eq (isFindEvent_addressToQuery h isExact mode).ne_isTrainEvent,
    if_neg (by simp [hdriveMode]), if_pos haddress]

end AddressToQuery

/-! ### Typed input -/

/-- `qry <<= 4; qry |= nibble`, of 32 bits. -/
def pushNibble (qry nibble : Nat) : Nat := qry <<< 4 % 2 ^ 32 ||| nibble

/-- The loop of `input_to_event`, on `shift`, `has_space` and `qry`. -/
def inputLoop : List Char → Nat → Bool → Nat → Nat
  | [], _, _, qry => qry
  | c :: input, shift, hasSpace, qry =>
    if shift < trainFindMaskLow then qry
    else if isNumber c then
      inputLoop input (shift - 4) false (pushNibble qry (c.toNat - '0'.toNat))
    else if hasSpace then inputLoop input shift true qry
    else inputLoop input (shift - 4) true (pushNibble qry 0xF)

/-- `flags` of `input_to_event`, by the first two characters and the last. -/
def inputFlags (input : List Char) : Nat :=
  let back := input.getLast?
  if 2 < input.length ∧ input[0]? = some '0' ∧ input[1]? = some '0' then marklinNew
  else if input[0]? = some '0' ∨ back = some 'L' then dccAny ||| dccLongAddress
  else if back = some 'M' then marklinNew
  else if back = some 'm' then marklinOld
  else if back = some 'S' then dccAny
  else 0

/-- `input_to_event`, which has an input that is not empty. -/
def inputToEvent (input : List Char) : Nat :=
  let qry := inputLoop input (trainFindMask - 4) true 0xFFFFFFFF
  let event := trainFindBase ||| (qry &&& 0xFFFFFF) <<< trainFindMaskLow
  let event := event &&& (2 ^ 64 - 1 - 0xff)
  event ||| (inputFlags input &&& 0xff)

/-- A digit as its nibble, and any other character as a separator. -/
def toNibble (c : Char) : Nat := if isNumber c then c.toNat - '0'.toNat else 0xF

/-- The digits of the input, with one nibble for each group of separators after the first digit. -/
def inputNibbles (input : List Char) : List Nat :=
  ((input.dropWhile (!isNumber ·)).map toNibble).destutter fun a b => a ≠ 0xF ∨ b ≠ 0xF

/-- The nibbles that the loop pushes. -/
def pushed : Bool → List Char → List Nat
  | _, [] => []
  | hasSpace, c :: input =>
    if isNumber c then (c.toNat - '0'.toNat) :: pushed false input
    else if hasSpace then pushed true input else 0xF :: pushed true input

theorem toNat_digit_le {c : Char} (h : isNumber c = true) : c.toNat - '0'.toNat ≤ 9 := by
  simp only [isNumber, Bool.decide_and, Bool.and_eq_true, decide_eq_true_eq] at h
  have hle : c.toNat ≤ '9'.toNat := h.2
  have : '9'.toNat = 57 := rfl
  have : '0'.toNat = 48 := rfl
  omega

theorem destutter_toNibble (input : List Char) :
    (∀ digit ≤ 9, (input.map toNibble).destutter' (fun a b => a ≠ 0xF ∨ b ≠ 0xF) digit =
      digit :: pushed false input) ∧
    (input.map toNibble).destutter' (fun a b => a ≠ 0xF ∨ b ≠ 0xF) 0xF =
      0xF :: pushed true input := by
  induction input with
  | nil => exact ⟨fun _ _ => rfl, rfl⟩
  | cons c input ih =>
    obtain ⟨hdigit, hspace⟩ := ih
    cases hc : isNumber c with
    | true =>
      have hle := toNat_digit_le hc
      have hnibble : toNibble c = c.toNat - '0'.toNat := if_pos hc
      have hpushed : ∀ hasSpace, pushed hasSpace (c :: input) =
          (c.toNat - '0'.toNat) :: pushed false input := fun _ => if_pos hc
      rw [List.map_cons, hnibble]
      refine ⟨fun digit h => ?_, ?_⟩
      · rw [List.destutter'_cons_pos _ (.inr (by omega)), hdigit _ hle, hpushed]
      · rw [List.destutter'_cons_pos _ (.inr (by omega)), hdigit _ hle, hpushed]
    | false =>
      have hnibble : toNibble c = 0xF := if_neg (by simp [hc])
      rw [List.map_cons, hnibble]
      refine ⟨fun digit h => ?_, ?_⟩
      · rw [List.destutter'_cons_pos _ (.inl (by omega)), hspace]
        simp [pushed, hc]
      · rw [List.destutter'_cons_neg _ (by simp), hspace]
        simp [pushed, hc]

theorem inputNibbles_eq (input : List Char) : inputNibbles input = pushed true input := by
  rw [inputNibbles]
  induction input with
  | nil => rfl
  | cons c input ih =>
    cases hc : isNumber c with
    | true =>
      rw [List.dropWhile_cons_of_neg (by simp [hc]), List.map_cons, List.destutter_cons']
      have hnibble : toNibble c = c.toNat - '0'.toNat := if_pos hc
      rw [hnibble, (destutter_toNibble input).1 _ (toNat_digit_le hc)]
      simp [pushed, hc]
    | false =>
      rw [List.dropWhile_cons_of_pos (by simp [hc]), ih]
      simp [pushed, hc]

theorem pushed_lt (hasSpace : Bool) (input : List Char) :
    ∀ nibble ∈ pushed hasSpace input, nibble < 2 ^ 4 := by
  induction input generalizing hasSpace with
  | nil => simp [pushed]
  | cons c input ih =>
    rw [pushed]
    split
    · next hc =>
      have := toNat_digit_le hc
      exact List.forall_mem_cons.mpr ⟨by omega, ih false⟩
    · split
      · exact ih true
      · exact List.forall_mem_cons.mpr ⟨by decide, ih true⟩

theorem filter_pushed (hasSpace : Bool) (input : List Char) :
    (pushed hasSpace input).filter (· ≤ 9) = digitsOf input := by
  induction input generalizing hasSpace with
  | nil => rfl
  | cons c input ih =>
    rw [pushed]
    cases hc : isNumber c with
    | true =>
      have hle := toNat_digit_le hc
      rw [if_pos rfl, List.filter_cons_of_pos (by simpa using hle), ih]
      simp [digitsOf, hc]
    | false =>
      have hrest : digitsOf (c :: input) = digitsOf input := by simp [digitsOf, hc]
      rw [if_neg Bool.false_ne_true, hrest]
      cases hasSpace with
      | true => exact ih true
      | false =>
        rw [if_neg Bool.false_ne_true, List.filter_cons_of_neg (by decide), ih]

/-- A push moves the nibbles up by one place. -/
theorem queryNibbles_pushNibble (qry : Nat) {nibble : Nat} (h : nibble < 2 ^ 4) :
    queryNibbles (pushNibble qry nibble) = (queryNibbles qry).tail ++ [nibble] := by
  have hshift : qry <<< 4 % 2 ^ 32 = 2 ^ 4 * (qry % 2 ^ 28) := by
    rw [Nat.shiftLeft_eq]
    omega
  have hlow : (2 ^ 4 * (qry % 2 ^ 28) + nibble) % 2 ^ 24 = (qry * 2 ^ 4 + nibble) % 2 ^ 24 := by
    omega
  rw [pushNibble, hshift, ← Nat.two_pow_add_eq_or_of_lt h, ← queryNibbles_mod, hlow,
    queryNibbles_mod, queryNibbles_push _ h]

/-- With room for all that is pushed, the loop comes to the end of the input. -/
theorem queryNibbles_inputLoop {input : List Char} {shift : Nat} {hasSpace : Bool} (qry : Nat)
    (hroom : 4 * (pushed hasSpace input).length + 4 ≤ shift) :
    queryNibbles (inputLoop input shift hasSpace qry) =
      (queryNibbles qry ++ pushed hasSpace input).drop (pushed hasSpace input).length := by
  induction input generalizing shift hasSpace qry with
  | nil => rfl
  | cons c input ih =>
    rw [inputLoop]
    by_cases hshift : shift < trainFindMaskLow
    · -- the query is full, and there is nothing left to push
      have hnone : pushed hasSpace (c :: input) = [] := by
        refine List.eq_nil_of_length_eq_zero ?_
        rw [trainFindMaskLow] at hshift
        omega
      rw [if_pos hshift, hnone]
      simp
    rw [if_neg hshift]
    rw [pushed] at hroom ⊢
    cases hc : isNumber c with
    | true =>
      have hle := toNat_digit_le hc
      simp only [hc, if_true, List.length_cons] at hroom ⊢
      rw [ih _ (by omega), queryNibbles_pushNibble _ (by omega), drop_pushed, List.length_cons]
    | false =>
      simp only [hc, Bool.false_eq_true, if_false] at hroom ⊢
      cases hasSpace with
      | true => exact ih _ hroom
      | false =>
        simp only [Bool.false_eq_true, if_false, List.length_cons] at hroom ⊢
        rw [ih _ (by omega), queryNibbles_pushNibble _ (by decide), drop_pushed, List.length_cons]

/-- The nibbles of a typed query. -/
theorem nibbles_inputToEvent (input : List Char) :
    nibbles (inputToEvent input) =
      queryNibbles (inputLoop input (trainFindMask - 4) true 0xFFFFFFFF) := by
  have hflags : inputFlags input &&& 0xff < 2 ^ 8 :=
    Nat.lt_of_le_of_lt Nat.and_le_right (by decide)
  rw [inputToEvent, nibbles_or hflags, nibbles_eq, ← Nat.shiftRight_eq_div_pow]
  generalize inputLoop input (trainFindMask - 4) true 0xFFFFFFFF = qry
  have hqry : qry &&& 0xFFFFFF = qry % 2 ^ 24 := Nat.and_two_pow_sub_one_eq_mod qry 24
  have hbase : trainFindBase >>> 8 = 2 ^ 24 * 0x090099FF := by decide
  have hlow : qry % 2 ^ 24 < 2 ^ 24 := Nat.mod_lt _ (by decide)
  have hquery : (2 ^ 24 * 0x090099FF + qry % 2 ^ 24) % 2 ^ 56 % 2 ^ 24 = qry % 2 ^ 24 := by omega
  rw [Nat.shiftRight_and_distrib, Nat.shiftRight_or_distrib, hqry, trainFindMaskLow,
    Nat.shiftLeft_shiftRight, hbase, ← Nat.two_pow_add_eq_or_of_lt hlow]
  show queryNibbles (_ &&& (2 ^ 56 - 1)) = _
  rw [Nat.and_two_pow_sub_one_eq_mod, ← queryNibbles_mod, hquery, queryNibbles_mod]

/-- Encoding and decoding of queries: an address with its drive mode, and typed digits. -/
theorem query_round_trip :
    (∀ address < 10 ^ 6, ∀ (isExact : Bool) (mode : DccMode),
      queryToAddress (addressToQuery address isExact mode) = (mode &&& protocolMask, address) ∧
      (1 ≤ address → ∀ name, matchQueryToNode (addressToQuery address isExact mode)
        ⟨address, mode &&& protocolMask, name⟩ = matchAny ||| addressOnly ||| exact)) ∧
    ∀ input : List Char, input ≠ [] → (inputNibbles input).length ≤ 6 →
      nibbles (inputToEvent input) =
        List.replicate (6 - (inputNibbles input).length) 0xF ++ inputNibbles input ∧
      (queryToAddress (inputToEvent input)).2 = valueOf (digitsOf input) := by
  refine ⟨fun address h isExact mode => ⟨queryToAddress_addressToQuery h isExact mode,
    fun _ name => matchQueryToNode_addressToQuery h isExact mode name⟩, fun input _ hroom => ?_⟩
  rw [inputNibbles_eq] at hroom ⊢
  have hnibbles : nibbles (inputToEvent input) =
      List.replicate (6 - (pushed true input).length) 0xF ++ pushed true input := by
    have hblank : queryNibbles 0xFFFFFFFF = List.replicate 6 0xF := by decide
    rw [nibbles_inputToEvent, queryNibbles_inputLoop _ (by rw [trainFindMask]; omega), hblank,
      List.drop_append_of_le_length (by simpa using hroom), List.drop_replicate]
  refine ⟨hnibbles, ?_⟩
  rw [queryToAddress, suppliedAddress_eq, digits, hnibbles, List.filter_append, filter_pushed]
  simp

theorem typed_read :
    queryToAddress (addressToQuery 415 false dcc28) = (dcc28, 415) ∧
    (queryToAddress (inputToEvent ['4', ' ', '-', '1', '5', ' '])).2 = 415 :=
  ⟨(query_round_trip.1 415 (by decide) false dcc28).1,
    (query_round_trip.2 ['4', ' ', '-', '1', '5', ' '] (by decide) (by decide)).2⟩

end OpenmrnCue.CommandStation.FindProtocolDefs
