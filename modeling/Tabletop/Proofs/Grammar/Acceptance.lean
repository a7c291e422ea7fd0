import Tabletop.Proofs.Grammar.FactorReading

namespace Tabletop

/-!
# Which texts are dice codes

Reading a chain of factors passes over every factor that has an `x` behind it
and ends with the first one that has not, or with the first fault:
`readFactors_reading`. A code that is read has a spelling (`readCode_sound`), and
every spelling whose numbers are short enough to be converted is read as the
code that it denotes (`readCode_chars`).
-/

/-- The texts of factors with an `x` behind each of them. -/
def passedChars (passed : List FactorSpelling) : List Char :=
  passed.flatMap fun f => f.chars ++ ['x']

/-- The factors of a code, those with an `x` behind them apart from the last. -/
structure Chain where
  passed : List FactorSpelling
  last : FactorSpelling

/-- The factors that a chain denotes, in the order of the text. -/
def Chain.factors (chain : Chain) : List Factor :=
  chain.passed.map FactorSpelling.factor ++ [chain.last.factor]

/-- A chain of complete factors at the front of a text that goes on without an `x`. -/
structure ChainSpelled
    (cs : List Char)
    (chain : Chain)
    (rest : List Char) :
    Prop where
  shape : cs = passedChars chain.passed ++ (chain.last.chars ++ rest)
  ends : chain.last.EndsBefore rest
  noX : rest.head? ≠ some 'x'

/-- The first fault in a chain: factors that are passed, and a faulty one. -/
inductive ChainFault (cs : List Char) : CodeError → Prop where
  | behind
      {passed : List FactorSpelling}
      {faulty : List Char}
      {error : CodeError}
      (shape : cs = passedChars passed ++ faulty)
      (fault : FactorFault faulty error) :
      ChainFault cs error

theorem passedChars_cons
    (f : FactorSpelling)
    (passed : List FactorSpelling)
    (rest : List Char) :
    passedChars (f :: passed) ++ rest =
      f.chars ++ 'x' :: (passedChars passed ++ rest) := by
  simp [passedChars]

theorem readFactors_reading (cs : List Char) :
    PartReading cs Chain.factors (ChainSpelled cs) (ChainFault cs) (readFactors cs) := by
  induction cs using readFactors.induct with
  | case1 cs misread step =>
      rw [readFactors_of_error step]
      have reading := readFactor_reading cs
      rw [step] at reading
      cases reading with
      | fault fault =>
          have shape : cs = passedChars [] ++ cs := rfl
          exact .fault (.behind shape fault)
      | oversized within digits long =>
          exact .oversized within digits long
  | case2 cs factor rest step inductionHypothesis =>
      rw [readFactors_of_more step]
      have reading := readFactor_reading cs
      rw [step] at reading
      cases reading with
      | read f spelled =>
          have restWithin : rest <:+: cs := by
            rw [spelled.shape]
            exact ((List.suffix_cons _ _).trans (List.suffix_append _ _)).isInfix
          apply (inductionHypothesis.widen restWithin).map
          · intro error fault
            cases fault with
            | @behind passed faulty _ shape fault =>
                have passedShape : cs = passedChars (f :: passed) ++ faulty := by
                  rw [passedChars_cons, ← shape]
                  exact spelled.shape
                exact .behind passedShape fault
          · intro chain behind chainSpelled
            have shape :
                cs = passedChars (f :: chain.passed) ++ (chain.last.chars ++ behind) := by
              rw [passedChars_cons, ← chainSpelled.shape]
              exact spelled.shape
            exact .read (Chain.mk (f :: chain.passed) chain.last)
              ⟨shape, chainSpelled.ends, chainSpelled.noX⟩
  | case3 cs factor rest noX step =>
      have last : rest.head? ≠ some 'x' := by
        intro isX
        obtain ⟨behind, shape⟩ := List.head?_eq_some_iff.mp isX
        exact noX behind shape
      rw [readFactors_of_last step last]
      have reading := readFactor_reading cs
      rw [step] at reading
      cases reading with
      | read f spelled =>
          exact .read (Chain.mk [] f) ⟨spelled.shape, spelled.ends, last⟩

/-- Factors that are passed are read one after the other. -/
theorem readFactors_passed
    {passed : List FactorSpelling}
    (short : ∀ f ∈ passed, f.Short)
    (cs : List Char) :
    readFactors (passedChars passed ++ cs) =
      (readFactors cs).map fun (factors, rest) =>
        (passed.map FactorSpelling.factor ++ factors, rest) := by
  induction passed with
  | nil =>
      change readFactors cs = _
      cases readFactors cs <;> rfl
  | cons f passed inductionHypothesis =>
      have step :=
        readFactor_spelled (short f (.head passed))
          (f.endsBefore_x (passedChars passed ++ cs))
      have passedShort : ∀ g ∈ passed, g.Short :=
        fun g member => short g (.tail f member)
      rw [passedChars_cons, readFactors_of_more step, inductionHypothesis passedShort]
      cases readFactors cs <;> rfl

theorem readFactors_spelled
    {cs rest : List Char}
    {chain : Chain}
    (spelled : ChainSpelled cs chain rest)
    (short : ∀ f ∈ chain.passed ++ [chain.last], f.Short) :
    readFactors cs = .ok (chain.factors, rest) := by
  rcases spelled with ⟨rfl, ends, noX⟩
  have lastStep := readFactor_spelled (short chain.last (by simp)) ends
  have passedShort : ∀ f ∈ chain.passed, f.Short :=
    fun f member => short f (List.mem_append_left _ member)
  rw [readFactors_passed passedShort, readFactors_of_last lastStep noX]
  rfl

theorem readExplode_append (cs : List Char) :
    Spelling.explodeChars (readExplode cs).1 ++ (readExplode cs).2 = cs := by
  unfold readExplode
  split <;> rfl

theorem readExplode_noE
    {cs : List Char}
    (notTaken : (readExplode cs).1 = false) :
    (readExplode cs).2.head? ≠ some 'E' := by
  unfold readExplode at notTaken ⊢
  split at notTaken
  · cases notTaken
  · next noE =>
      intro isE
      obtain ⟨rest, shape⟩ := List.head?_eq_some_iff.mp isE
      exact noE rest shape

theorem readExplode_explodeChars
    {explode : Bool}
    {rest : List Char}
    (noE : explode = false → rest.head? ≠ some 'E') :
    readExplode (Spelling.explodeChars explode ++ rest) = (explode, rest) := by
  cases explode with
  | true =>
      rfl
  | false =>
      change readExplode rest = (false, rest)
      unfold readExplode
      split
      · exact absurd rfl (noE rfl)
      · rfl

namespace Spelling

/-- The factors of a spelling as a chain. -/
theorem exists_chain (s : Spelling) :
    ∃ chain : Chain,
      s.first :: s.more = chain.passed ++ [chain.last] :=
  ⟨⟨(s.first :: s.more).dropLast, (s.first :: s.more).getLast (by simp)⟩,
    (List.dropLast_concat_getLast (by simp)).symm⟩

/-- A chain as the factors of a spelling. -/
theorem exists_of_chain
    (chain : Chain)
    (explode : Bool) :
    ∃ s : Spelling,
      s.first :: s.more = chain.passed ++ [chain.last] ∧ s.explode = explode := by
  rcases chain with ⟨passed, last⟩
  cases passed with
  | nil =>
      exact ⟨⟨last, [], explode⟩, rfl, rfl⟩
  | cons f passed =>
      exact ⟨⟨f, passed ++ [last], explode⟩, rfl, rfl⟩

/-- The same text with the separators behind the factors. -/
theorem chars_of_chain
    {first last : FactorSpelling}
    {more passed : List FactorSpelling}
    (same : first :: more = passed ++ [last]) :
    first.chars ++ moreChars more = passedChars passed ++ last.chars := by
  induction passed generalizing first more with
  | nil =>
      cases same
      simp [moreChars, passedChars]
  | cons f passed inductionHypothesis =>
      obtain ⟨rfl, moreSame⟩ := List.cons.inj same
      cases more with
      | nil =>
          simp at moreSame
      | cons g rest =>
          have restSame := inductionHypothesis moreSame
          rw [passedChars_cons, ← restSame]
          simp [moreChars]

/-- A code is spelled as a chain before the `E` or the end of the text. -/
theorem chainSpelled
    {s : Spelling}
    {chain : Chain}
    (same : s.first :: s.more = chain.passed ++ [chain.last]) :
    ChainSpelled s.chars chain (explodeChars s.explode) where
  shape := by
    rw [← List.append_assoc, ← chars_of_chain same]
    simp [chars]
  ends := endsBefore_more chain.last [] s.explode
  noX := by
    cases s.explode <;> decide

/-- Whether every number of a code is short enough to be converted. -/
def Short (s : Spelling) : Prop :=
  ∀ f ∈ s.first :: s.more, f.Short

theorem short_of_digitRunsWithin
    {s : Spelling}
    (short : Text.DigitRunsWithin digitLimit s.chars) :
    s.Short := by
  intro f member
  apply FactorSpelling.short_of_digitRunsWithin short
  rcases List.mem_cons.mp member with rfl | inMore
  · exact (List.prefix_append _ _).isInfix
  · obtain ⟨before, behind, moreShape⟩ := List.append_of_mem inMore
    refine ⟨s.first.chars ++ (moreChars before ++ ['x']),
      moreChars behind ++ explodeChars s.explode, ?_⟩
    simp [chars, moreShape, moreChars]

/-- A spelling is read as the code that it denotes. -/
theorem readCode_chars
    {s : Spelling}
    (short : s.Short) :
    readCode s.chars = .ok s.code := by
  obtain ⟨chain, same⟩ := s.exists_chain
  have read := readFactors_spelled (chainSpelled same) (same ▸ short)
  have factors : chain.factors = s.code.factors := by
    simp [Chain.factors, code, same]
  have noE : s.explode = false → ([] : List Char).head? ≠ some 'E' := by
    intro _
    nofun
  have explode := readExplode_explodeChars noE
  rw [List.append_nil] at explode
  simp [readCode, read, explode, factors, bind, Except.bind, code]

end Spelling

/-- A code that is read has a spelling. -/
theorem readCode_sound
    {cs : List Char}
    {code : DiceCode}
    (read : readCode cs = .ok code) :
    ∃ s : Spelling, s.chars = cs ∧ s.code = code := by
  have reading := readFactors_reading cs
  unfold readCode at read
  revert reading read
  generalize readFactors cs = result
  intro read reading
  cases reading with
  | fault fault =>
      cases read
  | oversized within digits long =>
      cases read
  | @read chain rest spelled =>
      simp only [bind, Except.bind] at read
      split at read
      · next complete =>
          obtain ⟨s, same, explode⟩ :=
            Spelling.exists_of_chain chain (readExplode rest).1
          have taken := readExplode_append rest
          rw [complete, List.append_nil, ← explode] at taken
          refine ⟨s, ?_, ?_⟩
          · rw [(Spelling.chainSpelled same).shape, taken]
            exact spelled.shape.symm
          · rw [← Except.ok.inj read]
            simp [Spelling.code, same, explode, Chain.factors]
      · cases read

namespace DiceCode

/--
In a text without overlong runs of digits, reading accepts exactly what has a
spelling between the blanks at its ends. The spelling is unique, and the code is
the one that it denotes.
-/
theorem read?_iff_uniqueSpelling
    {text : String}
    (short : Text.DigitRunsWithin digitLimit text.toList) :
    ((∃ code, read? text = .ok code) ↔
        ∃ s : Spelling, s.chars = Text.trimChars text.toList) ∧
      ∀ s : Spelling,
        s.chars = Text.trimChars text.toList →
        read? text = .ok s.code ∧
          ∀ other : Spelling,
            other.chars = Text.trimChars text.toList → other = s := by
  have spelledIsRead
      {s : Spelling}
      (spelled : s.chars = Text.trimChars text.toList) :
      read? text = .ok s.code := by
    have trimmedShort := short.of_infix (Text.trimChars_infix text.toList)
    rw [← spelled] at trimmedShort
    unfold read?
    rw [← spelled]
    exact Spelling.readCode_chars (Spelling.short_of_digitRunsWithin trimmedShort)
  refine ⟨⟨?_, ?_⟩, ?_⟩
  · rintro ⟨code, read⟩
    obtain ⟨s, spelled, -⟩ := readCode_sound read
    exact ⟨s, spelled⟩
  · rintro ⟨s, spelled⟩
    exact ⟨s.code, spelledIsRead spelled⟩
  · intro s spelled
    refine ⟨spelledIsRead spelled, ?_⟩
    intro other otherSpelled
    exact Spelling.eq_of_chars (otherSpelled.trans spelled.symm)

/-- A spelling with leading zeros, an operand of zero and a final `E`. -/
def zeroPadded : Spelling where
  first :=
    { count := some ⟨['0', '2'], by decide, by decide, by decide⟩
      sides := ⟨['6'], by decide, by decide, by decide⟩
      modifier := some (.minus, ⟨['0'], by decide, by decide, by decide⟩)
      countNotZero := by decide
      twoSides := by decide }
  more :=
    [{ count := none
       sides := ⟨['6', '6'], by decide, by decide, by decide⟩
       modifier := none
       countNotZero := nofun
       twoSides := by decide }]
  explode := true

theorem read?_zeroPadded :
    Text.DigitRunsWithin digitLimit " 02d6-0xd66E\n".toList ∧
      zeroPadded.chars = Text.trimChars " 02d6-0xd66E\n".toList ∧
      read? " 02d6-0xd66E\n" =
        .ok
          { factors :=
              [{ count := 2, modifier := { operation := .subtract } }, { sides := 66 }]
            explode := true } := by
  have short : Text.DigitRunsWithin digitLimit " 02d6-0xd66E\n".toList :=
    .of_length_le (by decide)
  have spelled : zeroPadded.chars = Text.trimChars " 02d6-0xd66E\n".toList := by
    decide
  have read := ((read?_iff_uniqueSpelling short).2 zeroPadded spelled).1
  exact ⟨short, spelled, read⟩

end DiceCode

end Tabletop
