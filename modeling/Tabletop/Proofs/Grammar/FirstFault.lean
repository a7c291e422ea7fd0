import Tabletop.Proofs.Grammar.Acceptance

namespace Tabletop

/-!
# Which fault is blamed

A text that is no dice code is blamed for the first fault behind its longest
sequence of complete factors with an `x` behind each of them. `FirstFault` lists
the faults that can stand there, with the error for each. The sequence is unique,
and the errors are exclusive and exhaustive.
-/

/-- The longest sequence of complete factors with an `x` behind each, and the text behind it. -/
structure LongestPassed
    (cs : List Char)
    (passed : List FactorSpelling)
    (rest : List Char) :
    Prop where
  split : cs = passedChars passed ++ rest
  longest :
    ∀ {others behind},
      cs = passedChars others ++ behind →
      (passedChars others).length ≤ (passedChars passed).length

/--
The first fault in a text behind the factors that are passed: a fault in the
factor that it is meant to begin with, or text behind a complete factor and the
`E` that may follow it.
-/
inductive FirstFault (cs : List Char) : CodeError → Prop where
  | factor
      {error : CodeError}
      (fault : FactorFault cs error) :
      FirstFault cs error
  | trailing
      {f : FactorSpelling}
      {explode : Bool}
      {rest : List Char}
      (shape : cs = f.chars ++ (Spelling.explodeChars explode ++ rest))
      (ends : f.EndsBefore (Spelling.explodeChars explode ++ rest))
      (noE : explode = false → rest.head? ≠ some 'E')
      (notEmpty : rest ≠ []) :
      FirstFault cs (.trailingInput (String.ofList rest))

/-- Whether no complete factor with an `x` behind it stands at the front of a text. -/
def NonePassed (cs : List Char) : Prop :=
  ∀ (f : FactorSpelling) (behind : List Char),
    cs ≠ f.chars ++ 'x' :: behind

/-- Factors that are passed come before those at which no further one is passed. -/
theorem prefix_of_nonePassed
    {passed others : List FactorSpelling}
    {rest behind : List Char}
    (same : passedChars passed ++ rest = passedChars others ++ behind)
    (none : NonePassed rest) :
    others <+: passed := by
  induction passed generalizing others with
  | nil =>
      cases others with
      | nil =>
          exact List.prefix_rfl
      | cons g others =>
          rw [passedChars_cons] at same
          exact absurd same (none g _)
  | cons f passed inductionHypothesis =>
      cases others with
      | nil =>
          exact List.nil_prefix
      | cons g others =>
          rw [passedChars_cons, passedChars_cons] at same
          obtain ⟨rfl, restSame⟩ :=
            FactorSpelling.append_inj same (f.endsBefore_x _) (g.endsBefore_x _)
          have ordered := inductionHypothesis (List.cons.inj restSame).2
          exact (List.prefix_cons_inj f).mpr ordered

namespace LongestPassed

variable {cs rest : List Char} {passed : List FactorSpelling}

theorem of_nonePassed
    (split : cs = passedChars passed ++ rest)
    (none : NonePassed rest) :
    LongestPassed cs passed rest where
  split := split
  longest otherSplit := by
    obtain ⟨more, rfl⟩ :=
      prefix_of_nonePassed (split.symm.trans otherSplit) none
    simp [passedChars]

/-- There is only one longest sequence. -/
theorem unique
    {others : List FactorSpelling}
    {behind : List Char}
    (split : cs = passedChars passed ++ rest)
    (none : NonePassed rest)
    (other : LongestPassed cs others behind) :
    others = passed ∧ behind = rest := by
  obtain ⟨more, rfl⟩ :=
    prefix_of_nonePassed (split.symm.trans other.split) none
  have longest := other.longest split
  cases more with
  | nil =>
      rw [List.append_nil] at split ⊢
      exact ⟨rfl, List.append_cancel_left (other.split.symm.trans split)⟩
  | cons f more =>
      have longer :
          (passedChars others).length < (passedChars (others ++ f :: more)).length := by
        simp only [passedChars, List.flatMap_append, List.flatMap_cons, List.length_append,
          List.length_singleton]
        omega
      exact absurd longest (Nat.not_le.mpr longer)

end LongestPassed

/-- A fault behind factors that are passed is blamed like a fault at the front. -/
theorem readCode_passed_of_error
    {passed : List FactorSpelling}
    {cs : List Char}
    {misread : Misread}
    (short : ∀ f ∈ passed, f.Short)
    (fault : readCode cs = .error misread) :
    readCode (passedChars passed ++ cs) = .error misread := by
  unfold readCode at fault ⊢
  rw [readFactors_passed short]
  revert fault
  cases readFactors cs with
  | error e =>
      exact id
  | ok taken =>
      rcases taken with ⟨factors, rest⟩
      simp only [bind, Except.bind, Except.map]
      split
      · nofun
      · exact id

/-- A first fault at the front is blamed where no run of digits is too long. -/
theorem readCode_of_firstFault
    {cs : List Char}
    {error : CodeError}
    (fault : FirstFault cs error)
    (none : NonePassed cs)
    (short : Text.DigitRunsWithin digitLimit cs) :
    readCode cs = .error (.rejected error) := by
  cases fault with
  | factor fault =>
      have step := readFactors_of_error (readFactor_of_fault fault short)
      simp [readCode, step, bind, Except.bind]
  | @trailing f explode rest shape ends noE notEmpty =>
      have within : f.chars <:+: cs := by
        rw [shape]
        exact (List.prefix_append _ _).isInfix
      have step :=
        readFactor_spelled (FactorSpelling.short_of_digitRunsWithin short within) ends
      have noX : (Spelling.explodeChars explode ++ rest).head? ≠ some 'x' := by
        intro isX
        obtain ⟨behind, behindShape⟩ := List.head?_eq_some_iff.mp isX
        exact none f behind (behindShape ▸ shape)
      simp [readCode, shape, readFactors_of_last step noX, readExplode_explodeChars noE,
        notEmpty, bind, Except.bind]

/--
Behind the factors that are passed, either the fault that is blamed stands or
the last factor of the code.
-/
theorem exists_passed
    {cs : List Char}
    (short : Text.DigitRunsWithin digitLimit cs) :
    ∃ passed rest,
      cs = passedChars passed ++ rest ∧
        NonePassed rest ∧
        ∀ misread,
          readCode cs = .error misread →
          ∃ error, FirstFault rest error ∧ misread = .rejected error := by
  have reading := readFactors_reading cs
  unfold readCode
  revert reading
  generalize readFactors cs = result
  intro reading
  cases reading with
  | oversized within digits long =>
      exact absurd (short _ within digits) (Nat.not_le.mpr long)
  | fault fault =>
      cases fault with
      | @behind passed faulty _ shape fault =>
          refine ⟨passed, faulty, shape, ?_, ?_⟩
          · intro f behind faultyShape
            have faultyShort : Text.DigitRunsWithin digitLimit faulty := by
              apply short.of_infix
              rw [shape]
              exact (List.suffix_append _ _).isInfix
            have within : f.chars <:+: faulty := by
              rw [faultyShape]
              exact (List.prefix_append _ _).isInfix
            have read :=
              readFactor_spelled
                (FactorSpelling.short_of_digitRunsWithin faultyShort within)
                (f.endsBefore_x behind)
            rw [← faultyShape, readFactor_of_fault fault faultyShort] at read
            cases read
          · intro misread blamed
            exact ⟨_, .factor fault, (Except.error.inj blamed).symm⟩
  | @read chain rest spelled =>
      refine ⟨chain.passed, chain.last.chars ++ rest, spelled.shape, ?_, ?_⟩
      · intro f behind shape
        obtain ⟨-, restShape⟩ :=
          FactorSpelling.append_inj shape spelled.ends (f.endsBefore_x behind)
        exact spelled.noX (by rw [restShape]; rfl)
      · intro misread blamed
        simp only [bind, Except.bind] at blamed
        have taken := readExplode_append rest
        split at blamed
        · cases blamed
        · next notEmpty =>
            have shape :
                chain.last.chars ++ rest =
                  chain.last.chars ++
                    (Spelling.explodeChars (readExplode rest).1 ++ (readExplode rest).2) := by
              rw [taken]
            have ends := taken.symm ▸ spelled.ends
            exact ⟨_, .trailing shape ends readExplode_noE notEmpty,
              (Except.error.inj blamed).symm⟩

theorem passed_short
    {passed : List FactorSpelling}
    {cs rest : List Char}
    (short : Text.DigitRunsWithin digitLimit cs)
    (split : cs = passedChars passed ++ rest) :
    ∀ f ∈ passed, f.Short := by
  intro f member
  apply FactorSpelling.short_of_digitRunsWithin short
  obtain ⟨before, behind, shape⟩ := List.append_of_mem member
  refine ⟨passedChars before, 'x' :: (passedChars behind ++ rest), ?_⟩
  simp [split, shape, passedChars]

theorem FactorFault.ne_trailingInput
    {cs : List Char}
    {error : CodeError}
    (fault : FactorFault cs error)
    (remainder : String) :
    error ≠ .trailingInput remainder := by
  rintro rfl
  cases fault with
  | count fault =>
      cases fault
  | sides counted fault =>
      cases fault with
      | number fault =>
          cases fault
  | modifier counted sided fault =>
      cases fault with
      | operand shape fault =>
          cases fault

/-- What stands before a remainder that is blamed has a spelling of its own. -/
theorem FirstFault.exists_spelling
    {rest : List Char}
    {remainder : String}
    (fault : FirstFault rest (.trailingInput remainder))
    (passed : List FactorSpelling) :
    ∃ s : Spelling,
      passedChars passed ++ rest = s.chars ++ remainder.toList := by
  cases fault with
  | factor fault =>
      exact absurd rfl (fault.ne_trailingInput remainder)
  | @trailing f explode remaining shape ends noE notEmpty =>
      obtain ⟨s, same, rfl⟩ := Spelling.exists_of_chain ⟨passed, f⟩ explode
      refine ⟨s, ?_⟩
      rw [(Spelling.chainSpelled same).shape, shape, String.toList_ofList]
      simp

namespace DiceCode

/--
In a text without overlong runs of digits, the longest sequence of factors that
are passed is unique, and the text is blamed with an error exactly if that error
is the one of the first fault behind them. What stands before a remainder that
is blamed is a dice code.
-/
theorem read?_error_iff_firstFault
    {text : String}
    (short : Text.DigitRunsWithin digitLimit text.toList) :
    ∃ passed rest,
      LongestPassed (Text.trimChars text.toList) passed rest ∧
        (∀ others behind,
          LongestPassed (Text.trimChars text.toList) others behind →
          others = passed ∧ behind = rest) ∧
        (∀ misread,
          read? text = .error misread ↔
            ∃ error, FirstFault rest error ∧ misread = .rejected error) ∧
        ∀ remainder,
          read? text = .error (.rejected (.trailingInput remainder)) →
          ∃ taken code,
            Text.trimChars text.toList = taken ++ remainder.toList ∧
              read? (String.ofList taken) = .ok code := by
  have trimmedShort := short.of_infix (Text.trimChars_infix text.toList)
  obtain ⟨passed, rest, split, none, blamed⟩ := exists_passed trimmedShort
  refine ⟨passed, rest, .of_nonePassed split none, ?_, ?_, ?_⟩
  · intro others behind other
    exact LongestPassed.unique split none other
  · intro misread
    constructor
    · exact blamed misread
    · rintro ⟨error, fault, rfl⟩
      have restShort : Text.DigitRunsWithin digitLimit rest := by
        apply trimmedShort.of_infix
        rw [split]
        exact (List.suffix_append _ _).isInfix
      unfold read?
      rw [split]
      exact readCode_passed_of_error (passed_short trimmedShort split)
        (readCode_of_firstFault fault none restShort)
  · intro remainder rejected
    obtain ⟨error, fault, same⟩ := blamed _ rejected
    cases same
    obtain ⟨s, shape⟩ := fault.exists_spelling passed
    rw [← split] at shape
    have takenShort : Text.DigitRunsWithin digitLimit s.chars := by
      apply trimmedShort.of_infix
      rw [shape]
      exact (List.prefix_append _ _).isInfix
    refine ⟨s.chars, s.code, shape, ?_⟩
    unfold read?
    rw [String.toList_ofList, Text.trimChars_eq_self s.chars_noBlank]
    exact Spelling.readCode_chars (Spelling.short_of_digitRunsWithin takenShort)

theorem firstFault_oneSide :
    Text.DigitRunsWithin digitLimit "2d6xd01".toList ∧
      ∃ passed rest,
        LongestPassed "2d6xd01".toList passed rest ∧
          FirstFault rest .tooFewSides := by
  have short : Text.DigitRunsWithin digitLimit "2d6xd01".toList :=
    .of_length_le (by decide)
  have firstRead :
      readFactor "2d6xd01".toList = .ok ({ count := 2 }, 'x' :: "d01".toList) := by
    rfl
  have secondRead : readFactor "d01".toList = .error (.rejected .tooFewSides) := by
    rfl
  have trimmed : Text.trimChars "2d6xd01".toList = "2d6xd01".toList := by
    decide
  have rejected : read? "2d6xd01" = .error (.rejected .tooFewSides) := by
    unfold read? readCode
    rw [trimmed, readFactors_of_more firstRead, readFactors_of_error secondRead]
    rfl
  obtain ⟨passed, rest, longest, -, blamed, -⟩ := read?_error_iff_firstFault short
  obtain ⟨error, fault, same⟩ := (blamed _).mp rejected
  cases same
  exact ⟨short, passed, rest, longest, fault⟩

end DiceCode

end Tabletop
