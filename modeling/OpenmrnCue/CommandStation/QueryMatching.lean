import Mathlib.Data.Nat.Log
import OpenmrnCue.CommandStation.TrainAllocation

/-! What `match_query_to_node` finds.  A query matches a train by its address, by the first digits
of its address, or by a number in its name; the name is scanned for the start of each number, and
the digits of the query are compared with all digits that come from there on.  From that it follows
that a query which asks for more matches no other trains. -/

namespace OpenmrnCue.CommandStation.FindProtocolDefs

open DccMode

/-! ### The digits of the name -/

theorem matchDigits_of_starts {digits : List Nat} {name : List Char}
    (h : digits <+: digitsOf name) : ∃ rest, matchDigits digits name = some rest := by
  induction digits generalizing name with
  | nil => exact ⟨name, rfl⟩
  | cons digit digits ih =>
    rw [← digitsOf_dropWhile] at h
    rw [matchDigits]
    cases heq : name.dropWhile (!isNumber ·) with
    | nil => simp [heq, digitsOf] at h
    | cons c tail =>
      have hc : isNumber c = true := by
        have := List.head_dropWhile_not (!isNumber ·) (by rw [heq]; simp)
        simpa [heq] using this
      rw [heq] at h
      have hcons : digitsOf (c :: tail) = (c.toNat - '0'.toNat) :: digitsOf tail := by
        simp [digitsOf, hc]
      rw [hcons, List.cons_prefix_cons] at h
      simp only
      rw [if_pos h.1.symm]
      exact ih h.2

theorem any_isNumber {name : List Char} : name.any isNumber = true ↔ digitsOf name ≠ [] := by
  rw [digitsOf, ne_eq, List.map_eq_nil_iff, List.filter_eq_nil_iff, List.any_eq_true]
  push_neg
  rfl

section Attempts

variable {event : Nat} {name : List Char}

/-- `attempt_match`: the query has the first digits of the name, or all of them. -/
theorem attemptMatch_eq (hdigits : digits event ≠ []) : attemptMatch name event =
    if digits event = digitsOf name then exact ||| matchAny
    else if digits event <+: digitsOf name ∧ ¬ HasFlag event exact then matchAny else 0 := by
  by_cases hstarts : digits event <+: digitsOf name
  · obtain ⟨rest, hmatch⟩ := matchDigits_of_starts hstarts
    have hrest := matchDigits_eq_some hmatch
    rw [attemptMatch, hmatch]
    simp only
    rw [if_neg hdigits]
    by_cases hall : digitsOf rest = []
    · have hnone : rest.any isNumber = false :=
        Bool.eq_false_iff.mpr fun hany => any_isNumber.mp hany hall
      rw [hnone, if_neg Bool.false_ne_true, if_pos (by rw [hrest, hall, List.append_nil])]
    · have hmore : digits event ≠ digitsOf name := by
        rw [hrest]
        simpa using hall
      rw [if_pos (any_isNumber.mpr hall), if_neg hmore]
      by_cases hexact : HasFlag event exact <;> simp [hexact, hstarts]
  · have hmatch : matchDigits (digits event) name = none := by
      cases hmatch : matchDigits (digits event) name with
      | none => rfl
      | some rest => exact absurd ⟨digitsOf rest, (matchDigits_eq_some hmatch).symm⟩ hstarts
    have hne : digits event ≠ digitsOf name := fun heq => hstarts (heq ▸ List.prefix_refl _)
    simp [attemptMatch, hmatch, hne, hstarts]

/-- The results of `attempt_match`, the better the greater. -/
def nameResults : List Nat := [0, matchAny, exact ||| matchAny]

theorem attemptMatch_mem (event : Nat) (name : List Char) :
    attemptMatch name event ∈ nameResults := by
  unfold attemptMatch
  split
  · simp [nameResults]
  · split
    · simp [nameResults]
    · split
      · split <;> simp [nameResults]
      · simp [nameResults]

end Attempts

/-- The rests of the name that start with one of its numbers, in the order in which the scan comes
to them. -/
def numbers : Bool → List Char → List (List Char)
  | _, [] => []
  | inNumber, c :: name =>
    if isNumber c then
      if inNumber then numbers true name else (c :: name) :: numbers true name
    else numbers false name

theorem matchName_eq (event : Nat) (inNumber : Bool) (name : List Char) (names : NameMatch) :
    matchName event inNumber name names = (numbers inNumber name).foldl
      (fun names number => names.update (attemptMatch number event)) names := by
  induction name generalizing inNumber names with
  | nil => rfl
  | cons c name ih =>
    rw [matchName, numbers]
    by_cases hc : isNumber c = true
    · rw [if_pos hc, if_pos hc]
      cases inNumber <;> simp [ih]
    · rw [if_neg hc, if_neg hc, ih]

/-- The scan comes to the start of every run of digits, and to nothing else. -/
theorem mem_numbers {inNumber : Bool} {name number : List Char} :
    number ∈ numbers inNumber name ↔ ∃ before c rest, name = before ++ c :: rest ∧
      number = c :: rest ∧ isNumber c = true ∧
      (before.getLast?.map isNumber).getD inNumber = false := by
  induction name generalizing inNumber with
  | nil => simp [numbers]
  | cons d name ih =>
    have hhere : ∀ {P : List Char → Char → List Char → Prop},
        (∃ before c rest, d :: name = before ++ c :: rest ∧ P before c rest) ↔
          P [] d name ∨ ∃ before c rest, name = before ++ c :: rest ∧ P (d :: before) c rest := by
      intro P
      constructor
      · rintro ⟨_ | ⟨first, before⟩, c, rest, heq, hP⟩
        · cases heq
          exact .inl hP
        · cases heq
          exact .inr ⟨before, c, rest, rfl, hP⟩
      · rintro (hP | ⟨before, c, rest, rfl, hP⟩)
        · exact ⟨[], d, name, rfl, hP⟩
        · exact ⟨d :: before, c, rest, rfl, hP⟩
    have hlast : ∀ before : List Char, ((d :: before).getLast?.map isNumber).getD inNumber =
        (before.getLast?.map isNumber).getD (isNumber d) := by
      intro before
      cases before with
      | nil => rfl
      | cons first before =>
        rw [List.getLast?_cons_cons, List.getLast?_eq_some_getLast (List.cons_ne_nil first before)]
        rfl
    rw [hhere]
    simp only [hlast]
    rw [numbers]
    cases hd : isNumber d with
    | false => simp [ih]
    | true => cases inNumber <;> simp [ih]

/-- The best match so far, which is none before the first number. -/
structure NameMatch.Sound (names : NameMatch) : Prop where
  first : names.first = 0xff → names.best = 0
  best : names.best ∈ nameResults

theorem better_eq_max {best current : Nat} (hbest : best ∈ nameResults)
    (hcurrent : current ∈ nameResults) :
    (if (best = 0 ∧ current ≠ 0) ∨ current &&& exact ≠ 0 then current else best) =
      max best current := by
  simp only [nameResults, List.mem_cons, List.not_mem_nil, or_false] at hbest hcurrent
  rcases hbest with rfl | rfl | rfl <;> rcases hcurrent with rfl | rfl | rfl <;> decide

theorem NameMatch.Sound.update {names : NameMatch} {current : Nat} (h : names.Sound)
    (hcurrent : current ∈ nameResults) :
    (names.update current).Sound ∧ (names.update current).best = max names.best current := by
  have hmax : max names.best current ∈ nameResults := by
    rcases max_choice names.best current with hmax | hmax <;> rw [hmax]
    · exact h.best
    · exact hcurrent
  by_cases hnone : names.first = 0xff
  · have hupdate : names.update current = ⟨current, current⟩ := by
      unfold NameMatch.update
      simp only [if_pos hnone, ite_self]
    have hne : current ≠ 0xff := by
      rintro rfl
      exact absurd hcurrent (by decide)
    rw [hupdate, h.first hnone, Nat.zero_max]
    exact ⟨⟨fun heq => absurd heq hne, hcurrent⟩, rfl⟩
  · have hupdate : names.update current = ⟨names.first, max names.best current⟩ := by
      rw [← better_eq_max h.best hcurrent]
      unfold NameMatch.update
      simp only [if_neg hnone]
      split <;> rfl
    rw [hupdate]
    exact ⟨⟨fun heq => absurd heq hnone, hmax⟩, rfl⟩

theorem NameMatch.Sound.foldl {names : NameMatch} (h : names.Sound) (event : Nat)
    (rests : List (List Char)) :
    let after := rests.foldl (fun names rest => names.update (attemptMatch rest event)) names
    after.Sound ∧ ∀ least, least ≤ after.best ↔
      least ≤ names.best ∨ ∃ rest ∈ rests, least ≤ attemptMatch rest event := by
  induction rests generalizing names with
  | nil => exact ⟨h, by simp⟩
  | cons rest rests ih =>
    obtain ⟨hsound, hbest⟩ := h.update (attemptMatch_mem event rest)
    obtain ⟨hafter, hleast⟩ := ih hsound
    refine ⟨hafter, fun least => ?_⟩
    rw [List.foldl_cons, hleast, hbest, le_max_iff, or_assoc, List.exists_mem_cons_iff]

/-- The best match of a name is the best of its numbers. -/
theorem bestNameMatch_spec (event : Nat) (name : List Char) :
    bestNameMatch event name ∈ nameResults ∧ ∀ least, 0 < least →
      (least ≤ bestNameMatch event name ↔
        ∃ rest ∈ numbers false name, least ≤ attemptMatch rest event) := by
  have hstart : (⟨0xff, 0⟩ : NameMatch).Sound := ⟨fun _ => rfl, by decide⟩
  obtain ⟨hsound, hleast⟩ := hstart.foldl event (numbers false name)
  rw [← matchName_eq] at hsound hleast
  have hbest : bestNameMatch event name = (matchName event false name ⟨0xff, 0⟩).best := by
    unfold bestNameMatch
    simp only
    split
    · next hfirst => exact (hsound.first hfirst).symm
    · rfl
  rw [hbest]
  refine ⟨hsound.best, fun least hpos => ?_⟩
  rw [hleast]
  exact or_iff_right (Nat.not_le_of_gt hpos)

/-- The digits of the name from the start of one of its runs of digits on. -/
def NumberIn (name : List Char) (number : List Nat) : Prop :=
  ∃ before c rest, name = before ++ c :: rest ∧ isNumber c = true ∧
    (∀ last ∈ before.getLast?, isNumber last = false) ∧ number = digitsOf (c :: rest)

theorem exists_numbers {name : List Char} {P : List Nat → Prop} :
    (∃ rest ∈ numbers false name, P (digitsOf rest)) ↔
      ∃ number, NumberIn name number ∧ P number := by
  have hbefore : ∀ before : List Char, (before.getLast?.map isNumber).getD false = false ↔
      ∀ last ∈ before.getLast?, isNumber last = false := by
    intro before
    cases before.getLast? <;> simp
  simp only [mem_numbers, hbefore]
  constructor
  · rintro ⟨_, ⟨before, c, rest, rfl, rfl, hc, hlast⟩, hP⟩
    exact ⟨_, ⟨before, c, rest, rfl, hc, hlast, rfl⟩, hP⟩
  · rintro ⟨_, ⟨before, c, rest, rfl, hc, hlast, rfl⟩, hP⟩
    exact ⟨_, ⟨before, c, rest, rfl, rfl, hc, hlast⟩, hP⟩

/-- A number of the name has the digits of the query, and no more. -/
def NameMatches (event : Nat) (name : List Char) : Prop :=
  ∃ number, NumberIn name number ∧ number = digits event

/-- A number of the name starts with the digits of the query and has more. -/
def NameContinues (event : Nat) (name : List Char) : Prop :=
  ∃ number, NumberIn name number ∧ digits event <+: number ∧ number ≠ digits event

section Names

variable {event : Nat}

theorem bestNameMatch_exact (name : List Char) (hdigits : digits event ≠ []) :
    bestNameMatch event name = exact ||| matchAny ↔ NameMatches event name := by
  obtain ⟨hmem, hleast⟩ := bestNameMatch_spec event name
  have hle : bestNameMatch event name = exact ||| matchAny ↔
      exact ||| matchAny ≤ bestNameMatch event name := by
    simp only [nameResults, List.mem_cons, List.not_mem_nil, or_false] at hmem
    rcases hmem with h | h | h <;> rw [h] <;> decide
  rw [hle, hleast _ (by decide), NameMatches, ← exists_numbers]
  refine exists_congr fun rest => and_congr_right fun _ => ?_
  rw [attemptMatch_eq hdigits]
  by_cases hall : digits event = digitsOf rest
  · rw [if_pos hall]
    exact iff_of_true (Nat.le_refl _) hall.symm
  · rw [if_neg hall]
    refine iff_of_false ?_ (Ne.symm hall)
    split <;> decide

theorem bestNameMatch_ne_zero (name : List Char) (hdigits : digits event ≠ []) :
    bestNameMatch event name ≠ 0 ↔
      NameMatches event name ∨ ¬ HasFlag event exact ∧ NameContinues event name := by
  obtain ⟨-, hleast⟩ := bestNameMatch_spec event name
  have hattempt : ∀ rest, 1 ≤ attemptMatch rest event ↔ digitsOf rest = digits event ∨
      ¬ HasFlag event exact ∧ digits event <+: digitsOf rest := by
    intro rest
    rw [attemptMatch_eq hdigits]
    by_cases hall : digits event = digitsOf rest
    · rw [if_pos hall]
      exact iff_of_true (by decide) (.inl hall.symm)
    · rw [if_neg hall]
      by_cases hpartial : digits event <+: digitsOf rest ∧ ¬ HasFlag event exact
      · rw [if_pos hpartial]
        exact iff_of_true (by decide) (.inr hpartial.symm)
      · rw [if_neg hpartial]
        refine iff_of_false (by decide) ?_
        rintro (heq | hboth)
        · exact hall heq.symm
        · exact hpartial hboth.symm
  rw [← Nat.one_le_iff_ne_zero, hleast 1 (by decide), NameMatches, NameContinues, ← exists_and_left,
    ← exists_or]
  simp only [hattempt]
  rw [exists_numbers (P := fun number => number = digits event ∨
    ¬ HasFlag event exact ∧ digits event <+: number)]
  exact exists_congr fun number => by tauto

end Names

/-! ### The address -/

theorem isAddressPrefix_iff {supplied fuel address : Nat} (hfuel : address ≤ fuel) :
    isAddressPrefix supplied fuel address = true ↔
      0 < supplied ∧ ∃ count, supplied = address / 10 ^ count := by
  induction fuel generalizing address with
  | zero =>
    obtain rfl : address = 0 := Nat.le_zero.mp hfuel
    refine iff_of_false (by simp [isAddressPrefix]) ?_
    rintro ⟨hpos, count, heq⟩
    rw [Nat.zero_div] at heq
    omega
  | succ fuel ih =>
    rw [isAddressPrefix]
    by_cases hzero : address = 0
    · rw [if_pos hzero]
      refine iff_of_false (by decide) ?_
      rintro ⟨hpos, count, heq⟩
      rw [hzero, Nat.zero_div] at heq
      omega
    · rw [if_neg hzero]
      by_cases hsame : address = supplied
      · rw [if_pos hsame]
        exact iff_of_true rfl ⟨by omega, 0, by rw [pow_zero, Nat.div_one, hsame]⟩
      · rw [if_neg hsame, ih (by omega)]
        refine and_congr_right fun hpos => ?_
        constructor
        · rintro ⟨count, heq⟩
          refine ⟨count + 1, ?_⟩
          rw [heq, Nat.div_div_eq_div_mul, ← pow_succ']
        · rintro ⟨_ | count, heq⟩
          · rw [pow_zero, Nat.div_one] at heq
            exact absurd heq.symm hsame
          · refine ⟨count, ?_⟩
            rw [heq, Nat.div_div_eq_div_mul, ← pow_succ']

/-- The number of the query is that of some first digits of the address, not of all. -/
def ProperPrefix (supplied address : Nat) : Prop :=
  0 < supplied ∧ ∃ count, 0 < count ∧ supplied = address / 10 ^ count

theorem isAddressPrefix_tenth {supplied address : Nat} :
    isAddressPrefix supplied address (address / 10) = true ↔ ProperPrefix supplied address := by
  rw [isAddressPrefix_iff (Nat.div_le_self address 10), ProperPrefix]
  refine and_congr_right fun _ => ?_
  constructor
  · rintro ⟨count, heq⟩
    refine ⟨count + 1, Nat.succ_pos count, ?_⟩
    rw [heq, Nat.div_div_eq_div_mul, ← pow_succ']
  · rintro ⟨_ | count, hpos, heq⟩
    · exact absurd hpos (Nat.lt_irrefl 0)
    · refine ⟨count, ?_⟩
      rw [heq, Nat.div_div_eq_div_mul, ← pow_succ']

/-! ### The match -/

/-- `address_type_match`. -/
def AddressTypeMatch (event : Nat) (train : TrainDbEntry) : Prop :=
  let desired := dccModeToAddressType (queryToMode event) (suppliedAddress event)
  let actual := dccModeToAddressType train.legacyDriveMode train.legacyAddress
  actual = .unsupported ∨ desired = .unspecified ∨ desired = actual

/-- The exact match of the address. -/
def AddressMatch (event : Nat) (train : TrainDbEntry) : Prop :=
  suppliedAddress event = train.legacyAddress ∧ AddressTypeMatch event train

/-- The match of the first digits of the address, for a query without `EXACT`. -/
def AddressPrefixMatch (event : Nat) (train : TrainDbEntry) : Prop :=
  ¬ HasFlag event exact ∧ AddressTypeMatch event train ∧
    ProperPrefix (suppliedAddress event) train.legacyAddress

instance (event : Nat) (train : TrainDbEntry) : Decidable (AddressTypeMatch event train) :=
  inferInstanceAs (Decidable (_ ∨ _))

instance (event : Nat) (train : TrainDbEntry) : Decidable (AddressMatch event train) :=
  inferInstanceAs (Decidable (_ ∧ _))

instance (supplied address : Nat) : Decidable (ProperPrefix supplied address) :=
  decidable_of_iff _ isAddressPrefix_tenth

instance (event : Nat) (train : TrainDbEntry) : Decidable (AddressPrefixMatch event train) :=
  inferInstanceAs (Decidable (_ ∧ _))

section Match

variable {event : Nat} {train : TrainDbEntry}

theorem bestNameMatch_and_exact (event : Nat) (name : List Char) :
    bestNameMatch event name &&& exact = 0 ↔ bestNameMatch event name ≠ exact ||| matchAny := by
  have hmem := (bestNameMatch_spec event name).1
  simp only [nameResults, List.mem_cons, List.not_mem_nil, or_false] at hmem
  rcases hmem with h | h | h <;> rw [h] <;> decide

/-- The cascade of `match_query_to_node`, in terms of what its conditions mean. -/
theorem matchQueryToNode_eq (hevent : event ≠ isTrainEvent) : matchQueryToNode event train =
    if matchEventToDriveMode event train.legacyDriveMode = false then 0
    else if AddressMatch event train then matchAny ||| addressOnly ||| exact
    else if HasFlag event addressOnly then
      if AddressPrefixMatch event train then matchAny ||| addressOnly else 0
    else if digits event = [] then if HasFlag event exact then 0 else matchAny
    else if bestNameMatch event train.trainName = exact ||| matchAny then exact ||| matchAny
    else if AddressPrefixMatch event train then matchAny ||| addressOnly
    else if HasFlag event exact then 0
    else bestNameMatch event train.trainName := by
  have hstarts : (¬ HasFlag event exact ∧ AddressTypeMatch event train ∧
      isAddressPrefix (suppliedAddress event) train.legacyAddress (train.legacyAddress / 10) =
        true) ↔ AddressPrefixMatch event train := by
    rw [isAddressPrefix_tenth, AddressPrefixMatch]
  have haddress : (suppliedAddress event = train.legacyAddress ∧ AddressTypeMatch event train) ↔
    AddressMatch event train := Iff.rfl
  rw [matchQueryToNode, if_neg hevent]
  simp only [queryToAddress, bestNameMatch_and_exact]
  simp only [AddressTypeMatch] at hstarts haddress
  simp only [hstarts, haddress]
  by_cases hmode : matchEventToDriveMode event train.legacyDriveMode = false
  · simp [hmode]
  rw [if_neg (by simpa using hmode), if_neg hmode]
  by_cases hmatch : AddressMatch event train
  · rw [if_pos hmatch, if_pos hmatch]
  rw [if_neg hmatch, if_neg hmatch]
  by_cases honly : HasFlag event addressOnly
  · -- the drive mode of an allocation is looked at only where the answer is no anyway
    by_cases hprefixed : AddressPrefixMatch event train
    · simp [honly, hprefixed, hprefixed.1]
    · simp [honly, hprefixed]
  · by_cases hname : bestNameMatch event train.trainName = exact ||| matchAny
    · simp [honly, hname]
    · by_cases hprefixed : AddressPrefixMatch event train
      · simp [honly, hname, hprefixed, hprefixed.1]
      · simp [honly, hname, hprefixed]

open Classical in
/-- A query with digits that is not restricted to addresses, and that does not have the address of
the train: first come the numbers of the name, then the first digits of the address, then the first
digits of the numbers of the name. -/
theorem matchQueryToNode_of_digits (hevent : event ≠ isTrainEvent) (hdigits : digits event ≠ [])
    (honly : ¬ HasFlag event addressOnly)
    (hmode : matchEventToDriveMode event train.legacyDriveMode = true)
    (haddress : ¬ AddressMatch event train) : matchQueryToNode event train =
      if NameMatches event train.trainName then exact ||| matchAny
      else if ¬ HasFlag event exact ∧ AddressTypeMatch event train ∧
        ProperPrefix (suppliedAddress event) train.legacyAddress then matchAny ||| addressOnly
      else if ¬ HasFlag event exact ∧ NameContinues event train.trainName then matchAny
      else 0 := by
  have hbest := bestNameMatch_exact train.trainName hdigits
  have hsome := bestNameMatch_ne_zero train.trainName hdigits
  have hmem := (bestNameMatch_spec event train.trainName).1
  rw [matchQueryToNode_eq hevent, if_neg (by simp [hmode]), if_neg haddress, if_neg honly,
    if_neg hdigits]
  by_cases hname : NameMatches event train.trainName
  · rw [if_pos (hbest.mpr hname), if_pos hname]
  rw [if_neg (fun heq => hname (hbest.mp heq)), if_neg hname]
  by_cases hprefixed : AddressPrefixMatch event train
  · rw [if_pos hprefixed, if_pos (show _ ∧ _ ∧ _ from hprefixed)]
  rw [if_neg hprefixed, if_neg (show ¬ (_ ∧ _) from hprefixed)]
  by_cases hexact : HasFlag event exact
  · rw [if_pos hexact, if_neg fun h => h.1 hexact]
  rw [if_neg hexact]
  by_cases hcontinues : NameContinues event train.trainName
  · rw [if_pos ⟨hexact, hcontinues⟩]
    have hne := hsome.mpr (.inr ⟨hexact, hcontinues⟩)
    simp only [nameResults, List.mem_cons, List.not_mem_nil, or_false] at hmem
    rcases hmem with h | h | h
    · exact absurd h hne
    · exact h
    · exact absurd (hbest.mp h) hname
  · rw [if_neg fun h => hcontinues h.2]
    by_contra hne
    exact (hsome.mp hne).elim hname fun h => hcontinues h.2

/-- The trains that a query matches. -/
theorem matches_iff (hevent : event ≠ isTrainEvent) : matchQueryToNode event train ≠ 0 ↔
    matchEventToDriveMode event train.legacyDriveMode = true ∧
      (AddressMatch event train ∨ AddressPrefixMatch event train ∨ ¬ HasFlag event addressOnly ∧
        (¬ HasFlag event exact ∧ digits event = [] ∨ digits event ≠ [] ∧
          (NameMatches event train.trainName ∨
            ¬ HasFlag event exact ∧ NameContinues event train.trainName))) := by
  rw [matchQueryToNode_eq hevent]
  cases hmode : matchEventToDriveMode event train.legacyDriveMode with
  | false => simp
  | true =>
    rw [if_neg (by decide)]
    by_cases haddress : AddressMatch event train
    · rw [if_pos haddress]
      exact iff_of_true (by decide) ⟨rfl, .inl haddress⟩
    rw [if_neg haddress]
    by_cases hprefixed : AddressPrefixMatch event train
    · refine iff_of_true ?_ ⟨rfl, .inr (.inl hprefixed)⟩
      rw [if_pos hprefixed, if_pos hprefixed, if_neg hprefixed.1]
      split_ifs <;> decide
    by_cases honly : HasFlag event addressOnly
    · simp [haddress, hprefixed, honly]
    by_cases hdigits : digits event = []
    · by_cases hexact : HasFlag event exact <;>
        simp [haddress, hprefixed, honly, hdigits, hexact, matchAny]
    · have hbest := bestNameMatch_exact train.trainName hdigits
      have hsome := bestNameMatch_ne_zero train.trainName hdigits
      rw [if_neg honly, if_neg hdigits, if_neg hprefixed]
      by_cases hname : NameMatches event train.trainName
      · rw [if_pos (hbest.mpr hname)]
        exact iff_of_true (by decide) ⟨rfl, .inr (.inr ⟨honly, .inr ⟨hdigits, .inl hname⟩⟩)⟩
      · rw [if_neg fun heq => hname (hbest.mp heq)]
        by_cases hexact : HasFlag event exact
        · simp [haddress, hprefixed, honly, hdigits, hexact, hname]
        · rw [if_neg hexact, hsome]
          simp [haddress, hprefixed, honly, hdigits, hexact, hname]

end Match

theorem re44_found : matchQueryToNode (trainFindBase + 0xF1123900)
    ⟨460, dcc128, ['R', 'e', ' ', '4', '/', '4', ' ', '1', '1', '2', '3', '9']⟩ =
      exact ||| matchAny := by
  rw [matchQueryToNode_of_digits (by decide) (by decide) (by decide) (by decide) (by decide)]
  exact if_pos ⟨[1, 1, 2, 3, 9],
    ⟨['R', 'e', ' ', '4', '/', '4', ' '], '1', ['1', '2', '3', '9'], rfl, by decide,
      fun last hlast => by obtain rfl : ' ' = last := Option.some.inj hlast; decide,
      by decide⟩, by decide⟩

/-! ### Narrower queries -/

theorem nibbles_or {event flag : Nat} (hflag : flag < 2 ^ 8) :
    nibbles (event ||| flag) = nibbles event := by
  have hshift : ∀ shift ∈ [28, 24, 20, 16, 12, 8], flag >>> shift = 0 := by
    intro shift hmem
    rw [Nat.shiftRight_eq_div_pow]
    refine Nat.div_eq_of_lt (Nat.lt_of_lt_of_le hflag (Nat.pow_le_pow_right (by decide) ?_))
    simp only [List.mem_cons, List.not_mem_nil, or_false] at hmem
    omega
  refine List.map_congr_left fun shift hmem => ?_
  rw [Nat.shiftRight_or_distrib, hshift shift hmem, Nat.or_zero]

theorem and_or_of_disjoint {event flag mask : Nat} (h : flag &&& mask = 0) :
    (event ||| flag) &&& mask = event &&& mask := by
  rw [Nat.and_or_distrib_right, h, Nat.or_zero]

theorem HasFlag.or {event flag : Nat} (other : Nat) (h : HasFlag event flag) :
    HasFlag (event ||| other) flag := by
  rw [HasFlag, Nat.and_or_distrib_right]
  exact fun hzero => h (Nat.or_eq_zero_iff.mp hzero).1

theorem isFindEvent_or {event flag : Nat} (h : isFindEvent event) (hflag : flag < 2 ^ 8) :
    isFindEvent (event ||| flag) := by
  rw [isFindEvent, Nat.shiftRight_or_distrib, h, Nat.shiftRight_eq_div_pow flag,
    Nat.div_eq_of_lt (Nat.lt_of_lt_of_le hflag (by decide)), Nat.or_zero]

theorem isFindEvent.ne_isTrainEvent {event : Nat} (h : isFindEvent event) :
    event ≠ isTrainEvent := by
  rintro rfl
  exact absurd h (by decide)

section Narrower

variable {event event' : Nat} {train : TrainDbEntry}

/-- Two queries with the same digits, drive mode and `ALLOCATE`. -/
structure SameQuery (event event' : Nat) : Prop where
  nibbles : nibbles event = nibbles event'
  mode : event &&& protocolMask = event' &&& protocolMask
  allocate : HasFlag event allocate ↔ HasFlag event' allocate

theorem sameQuery_or {flag : Nat} (hflag : flag < 2 ^ 8) (hmode : flag &&& protocolMask = 0)
    (hallocate : flag &&& allocate = 0) : SameQuery (event ||| flag) event where
  nibbles := nibbles_or hflag
  mode := and_or_of_disjoint hmode
  allocate := by rw [HasFlag, HasFlag, and_or_of_disjoint hallocate]

namespace SameQuery

variable (h : SameQuery event event')

include h

theorem digits : FindProtocolDefs.digits event = FindProtocolDefs.digits event' := by
  rw [FindProtocolDefs.digits, h.nibbles, FindProtocolDefs.digits]

theorem suppliedAddress : suppliedAddress event = FindProtocolDefs.suppliedAddress event' := by
  rw [FindProtocolDefs.suppliedAddress, h.nibbles, FindProtocolDefs.suppliedAddress]

theorem queryToMode : queryToMode event = FindProtocolDefs.queryToMode event' := by
  have hzero : hasPrefixZero event = hasPrefixZero event' := by
    rw [hasPrefixZero, h.nibbles, hasPrefixZero]
  simp only [FindProtocolDefs.queryToMode, hzero, h.mode, h.allocate]

theorem driveMode (mode : DccMode) :
    matchEventToDriveMode event mode = matchEventToDriveMode event' mode := by
  simp only [matchEventToDriveMode, h.mode]

theorem addressTypeMatch : AddressTypeMatch event train ↔ AddressTypeMatch event' train := by
  rw [AddressTypeMatch, h.queryToMode, h.suppliedAddress, AddressTypeMatch]

theorem addressMatch : AddressMatch event train ↔ AddressMatch event' train := by
  rw [AddressMatch, h.suppliedAddress, h.addressTypeMatch, AddressMatch]

theorem nameMatches {name : List Char} : NameMatches event name ↔ NameMatches event' name := by
  rw [NameMatches, h.digits, NameMatches]

theorem nameContinues {name : List Char} :
    NameContinues event name ↔ NameContinues event' name := by
  rw [NameContinues, h.digits, NameContinues]

/-- The query with more of the flags `EXACT` and `ADDRESS_ONLY` matches less. -/
theorem matches_of_flags (hfind : event' ≠ isTrainEvent) (hfind' : event ≠ isTrainEvent)
    (hexact : HasFlag event' exact → HasFlag event exact)
    (honly : HasFlag event' addressOnly → HasFlag event addressOnly)
    (hmatch : matchQueryToNode event train ≠ 0) : matchQueryToNode event' train ≠ 0 := by
  rw [matches_iff hfind', h.driveMode, h.addressMatch, AddressPrefixMatch, h.addressTypeMatch,
    h.suppliedAddress, h.digits, h.nameMatches, h.nameContinues] at hmatch
  rw [matches_iff hfind, AddressPrefixMatch]
  tauto

end SameQuery

/-- The query with one more digit: the nibbles move up by one place. -/
def appendDigit (event digit : Nat) : Nat :=
  event / 2 ^ 32 * 2 ^ 32 + (event / 2 ^ 8 % 2 ^ 20 * 2 ^ 4 + digit) * 2 ^ 8 + event % 2 ^ 8

/-- The nibbles of the digits of a query. -/
def queryNibbles (query : Nat) : List Nat :=
  [20, 16, 12, 8, 4, 0].map fun shift => query / 2 ^ shift % 2 ^ 4

theorem nibbles_eq (event : Nat) : nibbles event = queryNibbles (event / 2 ^ 8) := by
  have hnibble : ∀ shift, event >>> (8 + shift) &&& 0xf = event / 2 ^ 8 / 2 ^ shift % 2 ^ 4 := by
    intro shift
    rw [Nat.shiftRight_eq_div_pow, Nat.div_div_eq_div_mul, ← pow_add]
    exact Nat.and_two_pow_sub_one_eq_mod _ 4
  simp only [nibbles, queryNibbles, List.map_cons, List.map_nil, ← hnibble]

theorem queryNibbles_mod (query : Nat) : queryNibbles (query % 2 ^ 24) = queryNibbles query := by
  simp only [queryNibbles, List.map_cons, List.map_nil, List.cons.injEq, and_true, Nat.reducePow]
  omega

/-- A nibble that comes in from below. -/
theorem queryNibbles_push (query : Nat) {nibble : Nat} (h : nibble < 2 ^ 4) :
    queryNibbles (query * 2 ^ 4 + nibble) = (queryNibbles query).tail ++ [nibble] := by
  simp only [queryNibbles, List.map_cons, List.map_nil, List.tail_cons, List.cons_append,
    List.nil_append, List.cons.injEq, and_true, Nat.reducePow] at h ⊢
  omega

theorem nibbles_appendDigit {digit : Nat} (hdigit : digit < 2 ^ 4) :
    nibbles (appendDigit event digit) = (nibbles event).tail ++ [digit] := by
  have hquery : appendDigit event digit / 2 ^ 8 % 2 ^ 24 =
      (event / 2 ^ 8 * 2 ^ 4 + digit) % 2 ^ 24 := by
    rw [appendDigit]
    omega
  rw [nibbles_eq, ← queryNibbles_mod, hquery, queryNibbles_mod, queryNibbles_push _ hdigit,
    nibbles_eq]

/-- The flags and the drive mode are in the last byte. -/
theorem and_low (event : Nat) {mask : Nat} (hmask : mask < 2 ^ 8) :
    event &&& mask = event % 2 ^ 8 &&& mask := by
  rw [← Nat.and_two_pow_sub_one_eq_mod, Nat.and_assoc, Nat.and_comm (2 ^ 8 - 1),
    Nat.and_two_pow_sub_one_eq_mod, Nat.mod_eq_of_lt hmask]

theorem and_appendDigit {digit mask : Nat} (hmask : mask < 2 ^ 8) :
    appendDigit event digit &&& mask = event &&& mask := by
  rw [and_low _ hmask, and_low event hmask, appendDigit]
  congr 1
  omega

theorem isFindEvent_appendDigit {digit : Nat} (hfind : isFindEvent event) (hdigit : digit < 2 ^ 4) :
    isFindEvent (appendDigit event digit) := by
  rw [isFindEvent, ← hfind, appendDigit, Nat.shiftRight_eq_div_pow, Nat.shiftRight_eq_div_pow]
  show _ / 2 ^ 32 = _ / 2 ^ 32
  omega

theorem valueOf_pos {digits : List Nat} (h : ∃ digit ∈ digits, digit ≠ 0) : 0 < valueOf digits := by
  induction digits with
  | nil => simp at h
  | cons digit digits ih =>
    rw [valueOf, List.foldl_cons, foldl_value, Nat.zero_mul, Nat.zero_add]
    rcases (List.exists_mem_cons_iff _ _ _).mp h with hdigit | hrest
    · have : 0 < digit * 10 ^ digits.length := by positivity
      omega
    · have := ih hrest
      omega

section AppendDigit

variable {digit : Nat} (hdigit : digit ≤ 9) (hfirst : 9 < event >>> 28 &&& 0xf)

theorem nibbles_eq_cons (event : Nat) :
    nibbles event = (event >>> 28 &&& 0xf) :: (nibbles event).tail := rfl

include hdigit hfirst

theorem digits_appendDigit : digits (appendDigit event digit) = digits event ++ [digit] := by
  have hrest : digits event = (nibbles event).tail.filter (· ≤ 9) := by
    rw [digits, nibbles_eq_cons event, List.filter_cons_of_neg (by simpa using hfirst),
      List.tail_cons]
  rw [hrest, digits, nibbles_appendDigit (by omega), List.filter_append,
    List.filter_cons_of_pos (by simpa using hdigit), List.filter_nil]

theorem suppliedAddress_appendDigit :
    suppliedAddress (appendDigit event digit) = suppliedAddress event * 10 + digit := by
  rw [suppliedAddress_eq, digits_appendDigit hdigit hfirst, valueOf, List.foldl_append,
    suppliedAddress_eq]
  rfl

/-- The zeros at the front of the query are the same. -/
theorem hasPrefixZero_appendDigit (hsome : ∃ digit ∈ digits event, digit ≠ 0) :
    hasPrefixZero (appendDigit event digit) = hasPrefixZero event := by
  have hstart : (nibbles event).foldl readNibble (0, false) =
      (nibbles event).tail.foldl readNibble (0, false) := by
    rw [nibbles_eq_cons event, List.foldl_cons, List.tail_cons, readNibble, if_neg (by omega)]
    congr 1
    simp
    omega
  have hpos : ((nibbles event).tail.foldl readNibble (0, false)).1 ≠ 0 := by
    have := valueOf_pos hsome
    rw [← suppliedAddress_eq, suppliedAddress, hstart] at this
    omega
  rw [hasPrefixZero, nibbles_appendDigit (by omega), List.foldl_append, hasPrefixZero, hstart,
    List.foldl_cons, List.foldl_nil, readNibble, if_pos hdigit]
  simp [hpos]

end AppendDigit

/-- Without a drive mode the address type depends on the zeros at the front only. -/
theorem addressType_unrestricted (prefixZero : Bool) (address address' : Nat) :
    dccModeToAddressType (longAddressDriveType prefixZero DccMode.default) address =
      dccModeToAddressType (longAddressDriveType prefixZero DccMode.default) address' := by
  cases prefixZero with
  | false => rfl
  | true =>
    simp [longAddressDriveType, dccModeToAddressType, DccMode.default, dccDefault, dccAny,
      dccAnyMask, dccLongAddress, marklinAny, marklinAnyMask]

theorem ProperPrefix.shorter {supplied digit address : Nat} (hpos : 0 < supplied)
    (hdigit : digit ≤ 9) {count : Nat} (h : supplied * 10 + digit = address / 10 ^ count) :
    ProperPrefix supplied address := by
  refine ⟨hpos, count + 1, Nat.succ_pos count, ?_⟩
  rw [pow_succ, ← Nat.div_div_eq_div_mul, ← h]
  omega

/-- A query with one more digit matches less. -/
theorem matches_of_appendDigit {digit : Nat} (hdigit : digit ≤ 9)
    (hfirst : 9 < event >>> 28 &&& 0xf) (hfind : isFindEvent event)
    (hmode : event &&& protocolMask = DccMode.default) (hexact : ¬ HasFlag event exact)
    (halloc : ¬ HasFlag event allocate) (hsome : ∃ digit ∈ digits event, digit ≠ 0)
    (hmatch : matchQueryToNode (appendDigit event digit) train ≠ 0) :
    matchQueryToNode event train ≠ 0 := by
  have hfind' := isFindEvent_appendDigit hfind (show digit < 2 ^ 4 by omega)
  have hflag : ∀ flag < 2 ^ 8, (HasFlag (appendDigit event digit) flag ↔ HasFlag event flag) := by
    intro flag hlt
    rw [HasFlag, HasFlag, and_appendDigit hlt]
  have hdriveMode : matchEventToDriveMode event train.legacyDriveMode = true := by
    simp [matchEventToDriveMode, hmode]
  have hdigits := digits_appendDigit hdigit hfirst
  have hsupplied := suppliedAddress_appendDigit hdigit hfirst
  have hpos : 0 < suppliedAddress event := by
    rw [suppliedAddress_eq]
    exact valueOf_pos hsome
  have htype : AddressTypeMatch (appendDigit event digit) train → AddressTypeMatch event train := by
    have hmode' : ∀ query, query &&& protocolMask = DccMode.default → ¬ HasFlag query allocate →
        queryToMode query = longAddressDriveType (hasPrefixZero query) DccMode.default := by
      intro query hquery halloc
      rw [queryToMode, hquery, if_neg halloc]
    rw [AddressTypeMatch, AddressTypeMatch, hmode' event hmode halloc,
      hmode' _ ((and_appendDigit (by decide)).trans hmode)
        (fun h => halloc ((hflag _ (by decide)).mp h)),
      hasPrefixZero_appendDigit hdigit hfirst hsome,
      addressType_unrestricted _ _ (suppliedAddress event)]
    exact id
  obtain ⟨-, haddress | hprefixed | ⟨honly, ⟨-, hnone⟩ | ⟨-, hname⟩⟩⟩ :=
    (matches_iff hfind'.ne_isTrainEvent).mp hmatch
  all_goals
    rw [matches_iff hfind.ne_isTrainEvent]
    refine ⟨hdriveMode, ?_⟩
  · -- the address without its last digit
    refine .inr (.inl ⟨hexact, htype haddress.2, ?_⟩)
    have hall : suppliedAddress event * 10 + digit = train.legacyAddress / 10 ^ 0 := by
      rw [← hsupplied, haddress.1, pow_zero, Nat.div_one]
    exact .shorter hpos hdigit hall
  · obtain ⟨-, htypes, -, count, -, heq⟩ := hprefixed
    exact .inr (.inl ⟨hexact, htype htypes, .shorter hpos hdigit (hsupplied ▸ heq)⟩)
  · rw [hdigits] at hnone
    simp at hnone
  · have hnonempty : digits event ≠ [] := by
      obtain ⟨digit, hmem, -⟩ := hsome
      exact List.ne_nil_of_mem hmem
    have hcontinues : NameContinues event train.trainName := by
      obtain ⟨number, hnumber, hstarts⟩ : ∃ number, NumberIn train.trainName number ∧
          digits (appendDigit event digit) <+: number := by
        rcases hname with ⟨number, hnumber, rfl⟩ | ⟨-, number, hnumber, hstarts, -⟩
        · exact ⟨_, hnumber, List.prefix_refl _⟩
        · exact ⟨number, hnumber, hstarts⟩
      rw [hdigits] at hstarts
      refine ⟨number, hnumber, (List.prefix_append _ _).trans hstarts, ?_⟩
      rintro rfl
      have := hstarts.length_le
      simp at this
    exact .inr (.inr ⟨fun h => honly ((hflag _ (by decide)).mpr h),
      .inr ⟨hnonempty, .inr ⟨hexact, hcontinues⟩⟩⟩)

/-- A query that asks for more matches no other trains: for exact matches, for addresses only, or
for one more digit. -/
theorem narrower_matches_less {event : Nat} (hfind : isFindEvent event) (train : TrainDbEntry) :
    (matchQueryToNode (event ||| exact) train ≠ 0 → matchQueryToNode event train ≠ 0) ∧
    (matchQueryToNode (event ||| addressOnly) train ≠ 0 → matchQueryToNode event train ≠ 0) ∧
    ∀ digit ≤ 9, 9 < event >>> 28 &&& 0xf → event &&& protocolMask = DccMode.default →
      ¬ HasFlag event exact → ¬ HasFlag event allocate → (∃ digit ∈ digits event, digit ≠ 0) →
      matchQueryToNode (appendDigit event digit) train ≠ 0 → matchQueryToNode event train ≠ 0 := by
  refine ⟨?_, ?_, ?_⟩
  · have hsame : SameQuery (event ||| exact) event :=
      sameQuery_or (by decide) (by decide) (by decide)
    exact hsame.matches_of_flags hfind.ne_isTrainEvent
      (isFindEvent_or hfind (by decide)).ne_isTrainEvent (HasFlag.or exact) (HasFlag.or exact)
  · have hsame : SameQuery (event ||| addressOnly) event :=
      sameQuery_or (by decide) (by decide) (by decide)
    exact hsame.matches_of_flags hfind.ne_isTrainEvent
      (isFindEvent_or hfind (by decide)).ne_isTrainEvent (HasFlag.or addressOnly)
      (HasFlag.or addressOnly)
  · intro digit hdigit hfirst hmode hexact halloc hsome
    exact matches_of_appendDigit hdigit hfirst hfind hmode hexact halloc hsome

end Narrower

/-- The queries 12 and 123. -/
theorem train123_found : matchQueryToNode (trainFindBase + 0xFFFF1200) ⟨123, dcc128, []⟩ ≠ 0 :=
  (narrower_matches_less (by decide) ⟨123, dcc128, []⟩).2.2 3 (by decide) (by decide) (by decide)
    (by decide) (by decide) (by decide) (by decide)

end OpenmrnCue.CommandStation.FindProtocolDefs
