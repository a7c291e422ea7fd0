import Tabletop.Proofs.Grammar.Spelling

namespace Tabletop

/-!
# What reading a factor comes to

Reading a part of a factor finds the part spelled at the front of the text, or
the first fault in it, or a run of digits too long to be converted;
`PartReading` is that alternative, and each part of a factor has its own faults.
`readFactor_reading` puts the parts together. In a text with bounded runs the
spelling or the fault decides what is read: `readFactor_spelled` and
`readFactor_of_fault`.
-/

/-- The faults where a count may be left out. -/
inductive CountFault (cs : List Char) : CodeError → Prop where
  | tooLarge
      {run rest : List Char}
      (leading : Text.LeadingRun cs run rest)
      (large : greatestNumber < Text.numeralValue run) :
      CountFault cs (.badNumber (String.ofList run))
  | zero
      {n : WrittenNumber}
      {rest : List Char}
      (leading : Text.LeadingRun cs n.digits rest)
      (zero : n.value = 0) :
      CountFault cs .noRepeats

/-- The faults where a number of sides is expected. -/
inductive SidesFault (cs : List Char) : CodeError → Prop where
  | number
      {error : CodeError}
      (fault : NumberFault cs error) :
      SidesFault cs error
  | tooFew
      {n : WrittenNumber}
      {rest : List Char}
      (leading : Text.LeadingRun cs n.digits rest)
      (few : n.value < 2) :
      SidesFault cs .tooFewSides

/-- The faults where a modifier may be left out. -/
inductive ModifierFault (cs : List Char) : CodeError → Prop where
  | operand
      {sign : Sign}
      {behind : List Char}
      {error : CodeError}
      (shape : cs = sign.char :: behind)
      (fault : NumberFault behind error) :
      ModifierFault cs error

/-- A count that fits, or none, at the front of a text. -/
structure CountSpelled
    (cs : List Char)
    (count : Option WrittenNumber)
    (rest : List Char) :
    Prop where
  leading : Text.LeadingRun cs (FactorSpelling.countChars count) rest
  notZero : ∀ n ∈ count, n.value ≠ 0

/-- A number of sides that fits at the front of a text. -/
structure SidesSpelled
    (cs : List Char)
    (sides : WrittenNumber)
    (rest : List Char) :
    Prop where
  leading : Text.LeadingRun cs sides.digits rest
  twoSides : 2 ≤ sides.value

/-- A complete modifier, or none, at the front of a text. -/
structure ModifierSpelled
    (cs : List Char)
    (modifier : Option (Sign × WrittenNumber))
    (rest : List Char) :
    Prop where
  shape : cs = FactorSpelling.modifierChars modifier ++ rest
  noDigit : modifier.isSome = true → Text.NoDigitAhead rest
  noSign : modifier = none → ∀ sign : Sign, rest.head? ≠ some sign.char

/-- The first fault in a text that is meant to begin with a factor. -/
inductive FactorFault (cs : List Char) : CodeError → Prop where
  | count
      {error : CodeError}
      (fault : CountFault cs error) :
      FactorFault cs error
  | ended
      {count : Option WrittenNumber}
      (spelled : CountSpelled cs count []) :
      FactorFault cs (.unexpectedEnd (String.ofList cs))
  | noDie
      {count : Option WrittenNumber}
      {c : Char}
      {rest : List Char}
      (spelled : CountSpelled cs count (c :: rest))
      (notD : c ≠ 'd') :
      FactorFault cs (.unexpectedChar "d" (String.ofList (c :: rest)))
  | sides
      {count : Option WrittenNumber}
      {behind : List Char}
      {error : CodeError}
      (spelled : CountSpelled cs count ('d' :: behind))
      (fault : SidesFault behind error) :
      FactorFault cs error
  | modifier
      {count : Option WrittenNumber}
      {sides : WrittenNumber}
      {behindD behind : List Char}
      {error : CodeError}
      (spelled : CountSpelled cs count ('d' :: behindD))
      (sidesSpelled : SidesSpelled behindD sides behind)
      (fault : ModifierFault behind error) :
      FactorFault cs error

/-- A complete factor at the front of a text. -/
structure FactorSpelled
    (cs : List Char)
    (f : FactorSpelling)
    (rest : List Char) :
    Prop where
  shape : cs = f.chars ++ rest
  ends : f.EndsBefore rest

theorem readCount_reading (cs : List Char) :
    PartReading cs FactorSpelling.countValue (CountSpelled cs) (CountFault cs)
      (readCount cs) := by
  unfold readCount
  cases ahead : cs.head?.any Char.isDigit with
  | false =>
      exact .read none
        ⟨Text.leadingRun_nil (Text.noDigitAhead_iff.mpr ahead), by simp⟩
  | true =>
      rw [if_pos rfl]
      apply (readNumber_reading cs).andThen
      · intro error fault
        cases fault with
        | missing ends =>
            rw [Text.noDigitAhead_iff.mp ends] at ahead
            cases ahead
        | tooLarge leading large =>
            exact .tooLarge leading large
      · intro n rest leading
        by_cases zero : n.value = 0
        · simp only [if_pos zero]
          exact .fault (.zero leading zero)
        · simp only [if_neg zero]
          exact .read (some n) ⟨leading, by simpa using zero⟩

theorem readSides_reading (cs : List Char) :
    PartReading cs WrittenNumber.value (SidesSpelled cs) (SidesFault cs)
      (readSides cs) := by
  apply (readNumber_reading cs).andThen
  · exact .number
  · intro n rest leading
    by_cases few : n.value < 2
    · simp only [if_pos few]
      exact .fault (.tooFew leading few)
    · simp only [if_neg few]
      exact .read n ⟨leading, Nat.le_of_not_lt few⟩

theorem readModifier_sign
    (sign : Sign)
    (behind : List Char) :
    readModifier (sign.char :: behind) =
      (readNumber behind).map fun (operand, rest) =>
        ({ operation := sign.operation, operand := operand }, rest) := by
  cases sign with
  | plus =>
      change (readNumber behind >>= _) = _
      cases readNumber behind <;> rfl
  | minus =>
      change (readNumber behind >>= _) = _
      cases readNumber behind <;> rfl

theorem readModifier_of_noSign
    {cs : List Char}
    (noSign : ∀ sign : Sign, cs.head? ≠ some sign.char) :
    readModifier cs = .ok ({}, cs) := by
  unfold readModifier
  split
  · exact absurd rfl (noSign .plus)
  · exact absurd rfl (noSign .minus)
  · rfl

theorem readModifier_reading (cs : List Char) :
    PartReading cs FactorSpelling.modifierValue (ModifierSpelled cs) (ModifierFault cs)
      (readModifier cs) := by
  by_cases noSign : ∀ sign : Sign, cs.head? ≠ some sign.char
  · rw [readModifier_of_noSign noSign]
    exact .read none ⟨rfl, nofun, fun _ => noSign⟩
  · obtain ⟨sign, same⟩ : ∃ sign : Sign, cs.head? = some sign.char := by
      simpa using noSign
    obtain ⟨behind, rfl⟩ := List.head?_eq_some_iff.mp same
    rw [readModifier_sign]
    have operandReading :=
      (readNumber_reading behind).widen (List.suffix_cons sign.char behind).isInfix
    apply operandReading.map
    · exact .operand rfl
    · intro n rest leading
      have shape : sign.char :: behind = sign.char :: (n.digits ++ rest) := by
        rw [leading.split]
      exact .read (some (sign, n)) ⟨shape, fun _ => leading.ends, nofun⟩

/-- The parts of a factor that are spelled one behind the other spell the factor. -/
theorem FactorSpelled.of_parts
    {cs behindD behind rest : List Char}
    {count : Option WrittenNumber}
    {sides : WrittenNumber}
    {modifier : Option (Sign × WrittenNumber)}
    (counted : CountSpelled cs count ('d' :: behindD))
    (sided : SidesSpelled behindD sides behind)
    (modified : ModifierSpelled behind modifier rest) :
    FactorSpelled cs
      ⟨count, sides, modifier, counted.notZero, sided.twoSides⟩ rest where
  shape := by
    have whole :
        cs = FactorSpelling.countChars count ++
          'd' :: (sides.digits ++ (FactorSpelling.modifierChars modifier ++ rest)) := by
      rw [← modified.shape, ← sided.leading.split]
      exact counted.leading.split
    simpa [FactorSpelling.chars] using whole
  ends := by
    refine ⟨?_, modified.noSign⟩
    have shape := modified.shape
    have noDigit := modified.noDigit
    cases modifier with
    | none =>
        have same : behind = rest := shape
        exact same ▸ sided.leading.ends
    | some signed =>
        exact noDigit rfl

theorem readFactor_reading (cs : List Char) :
    PartReading cs FactorSpelling.factor (FactorSpelled cs) (FactorFault cs)
      (readFactor cs) := by
  apply (readCount_reading cs).andThen
  · exact .count
  intro count rest counted
  cases rest with
  | nil =>
      exact .fault (.ended counted)
  | cons c behindD =>
      by_cases isD : c = 'd'
      · subst isD
        simp only [if_pos]
        have behindDWithin : behindD <:+: cs :=
          (List.suffix_cons _ _).isInfix.trans counted.leading.rest_infix
        apply ((readSides_reading behindD).widen behindDWithin).andThen
        · exact .sides counted
        intro sides behind sided
        have behindWithin : behind <:+: cs :=
          sided.leading.rest_infix.trans behindDWithin
        apply ((readModifier_reading behind).widen behindWithin).andThen
        · exact .modifier counted sided
        intro modifier rest modified
        exact .read _ (FactorSpelled.of_parts counted sided modified)
      · simp only [if_neg isD]
        exact .fault (.noDie counted isD)

section

variable {cs rest : List Char}

theorem readCount_spelled
    {count : Option WrittenNumber}
    (spelled : CountSpelled cs count rest)
    (short : ∀ n ∈ count, n.digits.length ≤ digitLimit) :
    readCount cs = .ok (FactorSpelling.countValue count, rest) := by
  cases count with
  | none =>
      have noDigit : Text.NoDigitAhead rest := spelled.leading.ends
      have whole : cs = rest := spelled.leading.split
      subst whole
      simp [readCount, Text.noDigitAhead_iff.mp noDigit, FactorSpelling.countValue]
  | some n =>
      have leading : Text.LeadingRun cs n.digits rest := spelled.leading
      have digitAhead : cs.head?.any Char.isDigit = true := by
        rw [leading.split]
        exact n.digitAhead rest
      have read := readNumber_written leading (short n rfl)
      have notZero : n.value ≠ 0 := spelled.notZero n rfl
      simp [readCount, digitAhead, read, notZero, bind, Except.bind,
        FactorSpelling.countValue]

theorem readSides_spelled
    {sides : WrittenNumber}
    (spelled : SidesSpelled cs sides rest)
    (short : sides.digits.length ≤ digitLimit) :
    readSides cs = .ok (sides.value, rest) := by
  have read := readNumber_written spelled.leading short
  simp [readSides, read, Nat.not_lt.mpr spelled.twoSides, bind, Except.bind]

theorem readModifier_spelled
    {modifier : Option (Sign × WrittenNumber)}
    (spelled : ModifierSpelled cs modifier rest)
    (short : ∀ signed ∈ modifier, signed.2.digits.length ≤ digitLimit) :
    readModifier cs = .ok (FactorSpelling.modifierValue modifier, rest) := by
  rcases spelled with ⟨rfl, noDigit, noSign⟩
  cases modifier with
  | none =>
      exact readModifier_of_noSign (noSign rfl)
  | some signed =>
      rcases signed with ⟨sign, n⟩
      have read := readNumber_written (n.leadingRun (noDigit rfl)) (short _ rfl)
      have signRead := readModifier_sign sign (n.digits ++ rest)
      rw [read] at signRead
      exact signRead

theorem readCount_of_fault
    {error : CodeError}
    (fault : CountFault cs error)
    (short : Text.DigitRunsWithin digitLimit cs) :
    readCount cs = .error (.rejected error) := by
  cases fault with
  | @tooLarge run rest leading large =>
      have read := readNumber_of_fault (.tooLarge leading large) short
      cases ahead : cs.head?.any Char.isDigit with
      | false =>
          have empty : run = [] :=
            (leading.unique (Text.leadingRun_nil (Text.noDigitAhead_iff.mpr ahead))).1
          subst empty
          exact absurd large (by decide)
      | true =>
          simp [readCount, ahead, read, bind, Except.bind]
  | @zero n rest leading zero =>
      have digitAhead : cs.head?.any Char.isDigit = true := by
        rw [leading.split]
        exact n.digitAhead rest
      have read := readNumber_written leading (leading.length_le short)
      simp [readCount, digitAhead, read, zero, bind, Except.bind]

theorem readSides_of_fault
    {error : CodeError}
    (fault : SidesFault cs error)
    (short : Text.DigitRunsWithin digitLimit cs) :
    readSides cs = .error (.rejected error) := by
  cases fault with
  | number fault =>
      simp [readSides, readNumber_of_fault fault short, bind, Except.bind]
  | tooFew leading few =>
      have read := readNumber_written leading (leading.length_le short)
      simp [readSides, read, few, bind, Except.bind]

theorem readModifier_of_fault
    {error : CodeError}
    (fault : ModifierFault cs error)
    (short : Text.DigitRunsWithin digitLimit cs) :
    readModifier cs = .error (.rejected error) := by
  cases fault with
  | operand shape fault =>
      subst shape
      have behindShort := short.of_infix (List.suffix_cons _ _).isInfix
      rw [readModifier_sign, readNumber_of_fault fault behindShort]
      rfl

end

namespace FactorSpelling

/-- The numbers that are written in a factor. -/
def numbers (f : FactorSpelling) : List WrittenNumber :=
  f.count.toList ++ f.sides :: (f.modifier.map Prod.snd).toList

/-- Whether every number of a factor is short enough to be converted. -/
def Short (f : FactorSpelling) : Prop :=
  ∀ n ∈ f.numbers, n.digits.length ≤ digitLimit

theorem digits_infix_chars
    {f : FactorSpelling}
    {n : WrittenNumber}
    (member : n ∈ f.numbers) :
    n.digits <:+: f.chars := by
  rcases f with ⟨count, sides, modifier, notZero, twoSides⟩
  simp only [numbers, List.mem_append, List.mem_cons, Option.mem_toList] at member
  rcases member with inCount | rfl | inModifier
  · cases inCount
    exact (List.prefix_append _ _).isInfix
  · exact ⟨countChars count ++ ['d'], modifierChars modifier, by simp [chars]⟩
  · obtain ⟨signed, rfl, rfl⟩ := Option.map_eq_some_iff.mp inModifier
    exact ⟨countChars count ++ 'd' :: (sides.digits ++ [signed.1.char]), [],
      by simp [chars, modifierChars]⟩

theorem short_of_digitRunsWithin
    {f : FactorSpelling}
    {cs : List Char}
    (short : Text.DigitRunsWithin digitLimit cs)
    (within : f.chars <:+: cs) :
    f.Short := by
  intro n member
  exact short n.digits ((digits_infix_chars member).trans within) n.areDigits

end FactorSpelling

section

variable {cs rest : List Char}

/-- A spelled factor is read, and reading goes on behind it. -/
theorem readFactor_spelled
    {f : FactorSpelling}
    (short : f.Short)
    (ends : f.EndsBefore rest) :
    readFactor (f.chars ++ rest) = .ok (f.factor, rest) := by
  have counted :=
    readCount_spelled
      ⟨FactorSpelling.count_leadingRun f.count
        (f.sides.digits ++ (FactorSpelling.modifierChars f.modifier ++ rest)), f.countNotZero⟩
      fun n member => short n (by simp [FactorSpelling.numbers, Option.mem_def.mp member])
  have sided :=
    readSides_spelled ⟨f.sides.leadingRun ends.sides, f.twoSides⟩
      (short f.sides (by simp [FactorSpelling.numbers]))
  have modified :=
    readModifier_spelled ⟨rfl, fun _ => ends.noDigit, ends.noSign⟩
      fun signed member =>
        short signed.2 (by simp [FactorSpelling.numbers, Option.mem_def.mp member])
  simp [readFactor, FactorSpelling.chars, counted, sided, modified, bind, Except.bind,
    FactorSpelling.factor]

/-- The first fault of a factor is blamed where no run of digits is too long. -/
theorem readFactor_of_fault
    {error : CodeError}
    (fault : FactorFault cs error)
    (short : Text.DigitRunsWithin digitLimit cs) :
    readFactor cs = .error (.rejected error) := by
  have countShort
      {count : Option WrittenNumber}
      {rest : List Char}
      (spelled : CountSpelled cs count rest) :
      ∀ n ∈ count, n.digits.length ≤ digitLimit := by
    rintro n ⟨⟩
    exact spelled.leading.length_le short
  cases fault with
  | count fault =>
      simp [readFactor, readCount_of_fault fault short, bind, Except.bind]
  | ended counted =>
      simp [readFactor, readCount_spelled counted (countShort counted), bind, Except.bind]
  | noDie counted notD =>
      simp [readFactor, readCount_spelled counted (countShort counted), notD, bind,
        Except.bind]
  | @sides _ behind _ counted fault =>
      have behindShort : Text.DigitRunsWithin digitLimit behind :=
        short.of_infix ((List.suffix_cons _ _).isInfix.trans counted.leading.rest_infix)
      simp [readFactor, readCount_spelled counted (countShort counted),
        readSides_of_fault fault behindShort, bind, Except.bind]
  | @modifier _ _ behindD behind _ counted sided fault =>
      have behindDShort : Text.DigitRunsWithin digitLimit behindD :=
        short.of_infix ((List.suffix_cons _ _).isInfix.trans counted.leading.rest_infix)
      have behindShort : Text.DigitRunsWithin digitLimit behind :=
        behindDShort.of_infix sided.leading.rest_infix
      simp [readFactor, readCount_spelled counted (countShort counted),
        readSides_spelled sided (sided.leading.length_le behindDShort),
        readModifier_of_fault fault behindShort, bind, Except.bind]

end

end Tabletop
