import Tabletop.Proofs.Grammar.Acceptance

namespace Tabletop

/-!
# Numbers too long to be converted

Reading comes to a code or to the blame of a fault, except where it reaches a
number of more digits than are converted. Such a number is refused for its value
if it has more than three significant digits, and left over if it has not:
`NumberOverlong`. The exception is tied to the grammar by `readCode_oversized_iff`,
so a code that is read has short numbers only: `readFactor_short`.
-/

/--
A leading run of digits that is not refused for its value, and is too long to be
converted all the same: at most three of its digits are significant.
-/
inductive NumberOverlong (cs : List Char) : Nat → Prop where
  | padded
      {run rest : List Char}
      (leading : Text.LeadingRun cs run rest)
      (long : digitLimit < run.length)
      (small : Text.numeralValue run < 1000) :
      NumberOverlong cs run.length

/-- What stands at the front of a text decides what reading a number comes to. -/
theorem readNumber_of_leadingRun
    {cs run rest : List Char}
    (leading : Text.LeadingRun cs run rest) :
    readNumber cs =
      if run = [] then
        .error (.rejected (.badNumber ""))
      else if 1000 ≤ Text.numeralValue run then
        .error (.rejected (.badNumber (String.ofList run)))
      else if digitLimit < run.length then
        .error (.oversized run.length)
      else if greatestNumber < Text.numeralValue run then
        .error (.rejected (.badNumber (String.ofList run)))
      else
        .ok (Text.numeralValue run, rest) := by
  unfold readNumber
  rw [leading.spanDigits_eq]
  simp only [Text.three_lt_length_significant_iff leading.digits]
  split
  · next empty =>
      rw [empty, String.ofList_nil]
  · rfl

theorem readNumber_oversized_iff
    {cs : List Char}
    {digits : Nat} :
    readNumber cs = .error (.oversized digits) ↔ NumberOverlong cs digits := by
  constructor
  · have leading := Text.leadingRun_spanDigits cs
    intro oversized
    rw [readNumber_of_leadingRun leading] at oversized
    split at oversized
    · cases oversized
    · split at oversized
      · cases oversized
      · next small =>
          split at oversized
          · next long =>
              cases oversized
              exact .padded leading long (Nat.lt_of_not_le small)
          · split at oversized <;> cases oversized
  · rintro ⟨leading, long, small⟩
    have notEmpty := List.ne_nil_of_length_pos (Nat.zero_lt_of_lt long)
    rw [readNumber_of_leadingRun leading, if_neg notEmpty, if_neg (Nat.not_le_of_lt small),
      if_pos long]

/-- A written number that is not short is overlong, since its value is small. -/
theorem WrittenNumber.overlong
    {n : WrittenNumber}
    {cs rest : List Char}
    (leading : Text.LeadingRun cs n.digits rest)
    (long : ¬ n.digits.length ≤ digitLimit) :
    NumberOverlong cs n.digits.length :=
  .padded leading (Nat.lt_of_not_le long) (Nat.lt_of_le_of_lt n.inRange (by decide))

/-- A number that is read is short, since an overlong one is not. -/
theorem WrittenNumber.short_of_notOverlong
    {n : WrittenNumber}
    {cs rest : List Char}
    (leading : Text.LeadingRun cs n.digits rest)
    (notOverlong : ∀ digits, ¬ NumberOverlong cs digits) :
    n.digits.length ≤ digitLimit := by
  apply Nat.le_of_not_lt
  intro long
  exact notOverlong _ (overlong leading (Nat.not_le_of_lt long))

/-- A check behind a part that finds faults only leaves the exception to the part. -/
theorem bind_oversized_iff
    {α β : Type}
    {result : Except Misread α}
    {check : α → Except Misread β}
    {digits : Nat}
    (faultsOnly : ∀ taken, check taken ≠ .error (.oversized digits)) :
    (result >>= check) = .error (.oversized digits) ↔
      result = .error (.oversized digits) := by
  cases result with
  | error misread =>
      constructor <;> exact fun same => congrArg Except.error (Except.error.inj same)
  | ok taken =>
      constructor
      · exact fun same => absurd same (faultsOnly taken)
      · nofun

section

variable {cs : List Char} {digits : Nat}

theorem readCount_oversized_iff :
    readCount cs = .error (.oversized digits) ↔ NumberOverlong cs digits := by
  unfold readCount
  cases ahead : cs.head?.any Char.isDigit with
  | true =>
      rw [if_pos rfl, ← readNumber_oversized_iff]
      apply bind_oversized_iff
      intro taken
      simp only
      split <;> nofun
  | false =>
      have noRun := Text.leadingRun_nil (Text.noDigitAhead_iff.mpr ahead)
      constructor
      · nofun
      · rintro ⟨leading, long, -⟩
        obtain ⟨rfl, -⟩ := leading.unique noRun
        cases long

theorem readSides_oversized_iff :
    readSides cs = .error (.oversized digits) ↔ NumberOverlong cs digits := by
  rw [← readNumber_oversized_iff]
  apply bind_oversized_iff
  intro taken
  simp only
  split <;> nofun

/-- A count that is read is spelled with short digits. -/
theorem readCount_ok
    {taken : Nat × List Char}
    (read : readCount cs = .ok taken) :
    ∃ count,
      CountSpelled cs count taken.2 ∧ ∀ n ∈ count, n.digits.length ≤ digitLimit := by
  have notOverlong (digits : Nat) : ¬ NumberOverlong cs digits := by
    rw [← readCount_oversized_iff, read]
    nofun
  have reading := readCount_reading cs
  rw [read] at reading
  cases reading with
  | read count spelled =>
      refine ⟨count, spelled, ?_⟩
      rintro n ⟨⟩
      exact WrittenNumber.short_of_notOverlong spelled.leading notOverlong

theorem readSides_ok
    {taken : Nat × List Char}
    (read : readSides cs = .ok taken) :
    ∃ sides,
      SidesSpelled cs sides taken.2 ∧ sides.digits.length ≤ digitLimit := by
  have notOverlong (digits : Nat) : ¬ NumberOverlong cs digits := by
    rw [← readSides_oversized_iff, read]
    nofun
  have reading := readSides_reading cs
  rw [read] at reading
  cases reading with
  | read sides spelled =>
      exact ⟨sides, spelled, WrittenNumber.short_of_notOverlong spelled.leading notOverlong⟩

theorem readModifier_oversized_iff :
    readModifier cs = .error (.oversized digits) ↔
      ∃ (sign : Sign) (behind : List Char),
        cs = sign.char :: behind ∧ NumberOverlong behind digits := by
  by_cases noSign : ∀ sign : Sign, cs.head? ≠ some sign.char
  · rw [readModifier_of_noSign noSign]
    constructor
    · nofun
    · rintro ⟨sign, behind, rfl, -⟩
      exact absurd rfl (noSign sign)
  · obtain ⟨sign, same⟩ : ∃ sign : Sign, cs.head? = some sign.char := by
      simpa using noSign
    obtain ⟨behind, rfl⟩ := List.head?_eq_some_iff.mp same
    rw [readModifier_sign]
    constructor
    · intro oversized
      refine ⟨sign, behind, rfl, ?_⟩
      rw [← readNumber_oversized_iff]
      cases operand : readNumber behind with
      | error misread =>
          rw [operand] at oversized
          exact congrArg Except.error (Except.error.inj oversized)
      | ok taken =>
          rw [operand] at oversized
          cases oversized
    · rintro ⟨other, text, same, overlong⟩
      obtain ⟨-, rfl⟩ := List.cons.inj same
      rw [readNumber_oversized_iff.mpr overlong]
      rfl

end

/-- An overlong number where a factor is expected, behind parts that are read. -/
inductive FactorOverlong (cs : List Char) : Nat → Prop where
  | count
      {digits : Nat}
      (overlong : NumberOverlong cs digits) :
      FactorOverlong cs digits
  | sides
      {count : Option WrittenNumber}
      {behind : List Char}
      {digits : Nat}
      (counted : CountSpelled cs count ('d' :: behind))
      (countShort : ∀ n ∈ count, n.digits.length ≤ digitLimit)
      (overlong : NumberOverlong behind digits) :
      FactorOverlong cs digits
  | operand
      {count : Option WrittenNumber}
      {sides : WrittenNumber}
      {sign : Sign}
      {behindD behind : List Char}
      {digits : Nat}
      (counted : CountSpelled cs count ('d' :: behindD))
      (countShort : ∀ n ∈ count, n.digits.length ≤ digitLimit)
      (sided : SidesSpelled behindD sides (sign.char :: behind))
      (sidesShort : sides.digits.length ≤ digitLimit)
      (overlong : NumberOverlong behind digits) :
      FactorOverlong cs digits

theorem FactorOverlong.readFactor_eq
    {cs : List Char}
    {digits : Nat}
    (overlong : FactorOverlong cs digits) :
    readFactor cs = .error (.oversized digits) := by
  cases overlong with
  | count overlong =>
      simp [readFactor, readCount_oversized_iff.mpr overlong, bind, Except.bind]
  | sides counted countShort overlong =>
      simp [readFactor, readCount_spelled counted countShort,
        readSides_oversized_iff.mpr overlong, bind, Except.bind]
  | @operand _ _ sign _ behind _ counted countShort sided sidesShort overlong =>
      have modifier := readModifier_oversized_iff.mpr ⟨sign, behind, rfl, overlong⟩
      simp [readFactor, readCount_spelled counted countShort,
        readSides_spelled sided sidesShort, modifier, bind, Except.bind]

theorem FactorSpelling.short_of_parts
    {f : FactorSpelling}
    (count : ∀ n ∈ f.count, n.digits.length ≤ digitLimit)
    (sides : f.sides.digits.length ≤ digitLimit)
    (operand : ∀ signed ∈ f.modifier, signed.2.digits.length ≤ digitLimit) :
    f.Short := by
  intro n member
  simp only [numbers, List.mem_append, List.mem_cons, Option.mem_toList] at member
  rcases member with inCount | rfl | inModifier
  · exact count n inCount
  · exact sides
  · obtain ⟨signed, isSigned, rfl⟩ := Option.map_eq_some_iff.mp inModifier
    exact operand signed isSigned

/-- A complete factor in which not every number is short has an overlong one. -/
theorem FactorSpelled.overlong
    {cs rest : List Char}
    {f : FactorSpelling}
    (spelled : FactorSpelled cs f rest)
    (long : ¬ f.Short) :
    ∃ digits, FactorOverlong cs digits := by
  rcases spelled with ⟨rfl, ends⟩
  have leading :=
    FactorSpelling.count_leadingRun f.count
      (f.sides.digits ++ (FactorSpelling.modifierChars f.modifier ++ rest))
  have counted :
      CountSpelled (f.chars ++ rest) f.count
        ('d' :: (f.sides.digits ++ (FactorSpelling.modifierChars f.modifier ++ rest))) :=
    ⟨by simpa [FactorSpelling.chars] using leading, f.countNotZero⟩
  have sided := SidesSpelled.mk (f.sides.leadingRun ends.sides) f.twoSides
  by_cases countShort : ∀ n ∈ f.count, n.digits.length ≤ digitLimit
  · by_cases sidesShort : f.sides.digits.length ≤ digitLimit
    · obtain ⟨⟨sign, n⟩, isSigned, operandLong⟩ :
          ∃ signed ∈ f.modifier, ¬ signed.2.digits.length ≤ digitLimit := by
        apply Classical.byContradiction
        intro none
        refine long (FactorSpelling.short_of_parts countShort sidesShort ?_)
        intro signed isSigned
        exact Classical.not_not.mp fun operandLong => none ⟨signed, isSigned, operandLong⟩
      rw [Option.mem_def.mp isSigned] at counted sided
      exact ⟨_, .operand counted countShort sided sidesShort
        (WrittenNumber.overlong (n.leadingRun ends.noDigit) operandLong)⟩
    · exact ⟨_, .sides counted countShort (WrittenNumber.overlong sided.leading sidesShort)⟩
  · obtain ⟨n, member, countLong⟩ : ∃ n ∈ f.count, ¬ n.digits.length ≤ digitLimit := by
      simpa using countShort
    have run := counted.leading
    rw [Option.mem_def.mp member] at run
    exact ⟨_, .count (WrittenNumber.overlong run countLong)⟩

/-- A factor that is read has short numbers only. -/
theorem readFactor_short
    {cs rest : List Char}
    {f : FactorSpelling}
    {factor : Factor}
    (read : readFactor cs = .ok (factor, rest))
    (spelled : FactorSpelled cs f rest) :
    f.Short := by
  apply Classical.byContradiction
  intro long
  obtain ⟨digits, overlong⟩ := spelled.overlong long
  rw [overlong.readFactor_eq] at read
  cases read

theorem readFactor_oversized_iff
    {cs : List Char}
    {digits : Nat} :
    readFactor cs = .error (.oversized digits) ↔ FactorOverlong cs digits := by
  constructor
  · intro oversized
    unfold readFactor at oversized
    cases count : readCount cs with
    | error misread =>
        rw [count] at oversized
        rw [Except.error.inj oversized] at count
        exact .count (readCount_oversized_iff.mp count)
    | ok taken =>
        obtain ⟨written, counted, countShort⟩ := readCount_ok count
        simp only [count, bind, Except.bind] at oversized
        split at oversized
        · cases oversized
        · next c behindD behindCount =>
            rw [behindCount] at counted
            split at oversized
            · next isD =>
                subst isD
                cases sides : readSides behindD with
                | error misread =>
                    rw [sides] at oversized
                    rw [Except.error.inj oversized] at sides
                    exact .sides counted countShort (readSides_oversized_iff.mp sides)
                | ok taken =>
                    obtain ⟨writtenSides, sided, sidesShort⟩ := readSides_ok sides
                    simp only [sides] at oversized
                    cases modifier : readModifier taken.2 with
                    | error misread =>
                        rw [modifier] at oversized
                        rw [Except.error.inj oversized] at modifier
                        obtain ⟨sign, behind, shape, overlong⟩ :=
                          readModifier_oversized_iff.mp modifier
                        rw [shape] at sided
                        exact .operand counted countShort sided sidesShort overlong
                    | ok taken =>
                        rw [modifier] at oversized
                        cases oversized
            · cases oversized
  · exact FactorOverlong.readFactor_eq

/-- The first overlong number of a chain: factors that are passed and read, and the one it is in. -/
inductive ChainOverlong (cs : List Char) : Nat → Prop where
  | behind
      {passed : List FactorSpelling}
      {rest : List Char}
      {digits : Nat}
      (shape : cs = passedChars passed ++ rest)
      (short : ∀ f ∈ passed, f.Short)
      (overlong : FactorOverlong rest digits) :
      ChainOverlong cs digits

theorem head?_ne_x
    {cs : List Char}
    (noX : ∀ behind, cs = 'x' :: behind → False) :
    cs.head? ≠ some 'x' := by
  intro isX
  obtain ⟨behind, shape⟩ := List.head?_eq_some_iff.mp isX
  exact noX behind shape

theorem readFactors_oversized_iff
    {cs : List Char}
    {digits : Nat} :
    readFactors cs = .error (.oversized digits) ↔ ChainOverlong cs digits := by
  constructor
  · induction cs using readFactors.induct with
    | case1 cs misread step =>
        intro oversized
        rw [readFactors_of_error step] at oversized
        rw [Except.error.inj oversized] at step
        have overlong := readFactor_oversized_iff.mp step
        have shape : cs = passedChars [] ++ cs := rfl
        exact .behind shape (by simp) overlong
    | case2 cs factor rest step inductionHypothesis =>
        intro oversized
        rw [readFactors_of_more step] at oversized
        have reading := readFactor_reading cs
        rw [step] at reading
        cases reading with
        | read f spelled =>
            cases more : readFactors rest with
            | error misread =>
                rw [more] at oversized
                rw [Except.error.inj oversized] at more
                obtain ⟨restShape, short, overlong⟩ := inductionHypothesis more
                have shape := spelled.shape
                rw [restShape, ← passedChars_cons] at shape
                exact .behind shape
                  (List.forall_mem_cons.mpr ⟨readFactor_short step spelled, short⟩) overlong
            | ok taken =>
                rw [more] at oversized
                cases oversized
    | case3 cs factor rest noX step =>
        intro oversized
        rw [readFactors_of_last step (head?_ne_x noX)] at oversized
        cases oversized
  · rintro ⟨rfl, short, overlong⟩
    rw [readFactors_passed short, readFactors_of_error (readFactor_oversized_iff.mpr overlong)]
    rfl

theorem readCode_oversized_iff
    {cs : List Char}
    {digits : Nat} :
    readCode cs = .error (.oversized digits) ↔ ChainOverlong cs digits := by
  rw [← readFactors_oversized_iff]
  apply bind_oversized_iff
  intro taken
  simp only
  split <;> nofun

/-- Zeros in front make any number of one digit overlong where sides are expected. -/
theorem chainOverlong_paddedSides
    {zeros : Nat}
    {last : Char}
    (long : digitLimit ≤ zeros)
    (digit : last.isDigit = true) :
    ChainOverlong ('d' :: (List.replicate zeros '0' ++ [last])) (zeros + 1) := by
  have noCount : CountSpelled ('d' :: (List.replicate zeros '0' ++ [last])) none
      ('d' :: (List.replicate zeros '0' ++ [last])) :=
    ⟨Text.leadingRun_nil (Text.noDigitAhead_cons.mpr (by decide)), by simp⟩
  have lastDigit : Text.IsDigits [last] :=
    fun c member => List.mem_singleton.mp member ▸ digit
  have leading :
      Text.LeadingRun (List.replicate zeros '0' ++ [last])
        (List.replicate zeros '0' ++ [last]) [] :=
    ⟨by simp, Text.isDigits_zeros lastDigit, Text.noDigitAhead_nil⟩
  have small : Text.numeralValue (List.replicate zeros '0' ++ [last]) < 1000 := by
    rw [Text.numeralValue_zeros]
    exact Nat.lt_trans (Text.numeralValue_lt lastDigit) (by simp)
  have length : (List.replicate zeros '0' ++ [last]).length = zeros + 1 := by
    simp
  have overlong := NumberOverlong.padded leading (by rw [length]; exact Nat.lt_succ_of_le long) small
  rw [length] at overlong
  have shape :
      'd' :: (List.replicate zeros '0' ++ [last]) =
        passedChars [] ++ 'd' :: (List.replicate zeros '0' ++ [last]) := rfl
  exact .behind shape (by simp) (.sides noCount (by simp) overlong)

end Tabletop
