import Tabletop.Code.Writer
import Tabletop.Proofs.Grammar.Acceptance

namespace Tabletop

/-!
# Canonical texts

Codes are plain data, so most of them are written by no text. The well-formed
ones are those with a factor, whose numbers are in range and whose modifiers are
either nothing or a signed operand. Every code that is read is well-formed, and
the canonical text of a code reads as the code itself exactly if it is
well-formed.
-/

/-- Whether a modifier is one that a text can write: nothing, or a signed operand in range. -/
def Modifier.WellFormed (m : Modifier) : Prop :=
  m = { operation := .keep, operand := 0 } ∨
    (m.operation = .add ∨ m.operation = .subtract) ∧ 0 ≤ m.operand ∧ m.operand ≤ 255

/-- Whether a factor is one that a text can write. -/
structure Factor.WellFormed (f : Factor) : Prop where
  count : 1 ≤ f.count ∧ f.count ≤ 255
  sides : 2 ≤ f.sides ∧ f.sides ≤ 255
  modifier : f.modifier.WellFormed

/-- The sides that a text can write have few digits. -/
theorem Factor.WellFormed.sides_writable
    {f : Factor}
    (wellFormed : f.WellFormed) :
    Text.Writable f.sides := by
  obtain ⟨low, high⟩ := wellFormed.sides
  have greatest : Text.Writable 255 := by
    decide
  exact greatest.mono (by omega)

/-- Whether a code is one that a text can write. -/
structure DiceCode.WellFormed (code : DiceCode) : Prop where
  nonempty : code.factors ≠ []
  factors : ∀ f ∈ code.factors, f.WellFormed

namespace FactorSpelling

theorem countValue_inRange
    {count : Option WrittenNumber}
    (notZero : ∀ n ∈ count, n.value ≠ 0) :
    1 ≤ countValue count ∧ countValue count ≤ greatestNumber := by
  cases count with
  | none =>
      decide
  | some n =>
      exact ⟨Nat.one_le_iff_ne_zero.mpr (notZero n rfl), n.inRange⟩

theorem modifierValue_wellFormed (modifier : Option (Sign × WrittenNumber)) :
    (modifierValue modifier).WellFormed := by
  cases modifier with
  | none =>
      exact .inl rfl
  | some signed =>
      rcases signed with ⟨sign, n⟩
      have inRange : (n.value : Int) ≤ 255 :=
        Int.ofNat_le.mpr n.inRange
      refine .inr ⟨?_, Int.natCast_nonneg n.value, inRange⟩
      cases sign with
      | plus =>
          exact .inl rfl
      | minus =>
          exact .inr rfl

theorem factor_wellFormed (f : FactorSpelling) : f.factor.WellFormed where
  count := by
    obtain ⟨low, high⟩ := countValue_inRange f.countNotZero
    exact ⟨Int.ofNat_le.mpr low, Int.ofNat_le.mpr high⟩
  sides := ⟨Int.ofNat_le.mpr f.twoSides, Int.ofNat_le.mpr f.sides.inRange⟩
  modifier := modifierValue_wellFormed f.modifier

end FactorSpelling

theorem Spelling.code_wellFormed (s : Spelling) : s.code.WellFormed where
  nonempty := by
    simp [code]
  factors := by
    intro factor member
    obtain ⟨f, -, rfl⟩ := List.mem_map.mp member
    exact f.factor_wellFormed

/-- A number in range is written by its shortest numeral. -/
theorem WrittenNumber.exists_of_int
    {i : Int}
    (notNegative : 0 ≤ i)
    (inRange : i ≤ 255) :
    ∃ n : WrittenNumber,
      n.digits = Text.signedNumeral i ∧
        (n.value : Int) = i ∧
        n.digits.length ≤ digitLimit := by
  obtain ⟨m, rfl⟩ := Int.eq_ofNat_of_zero_le notNegative
  have small : m ≤ greatestNumber := Int.ofNat_le.mp inRange
  have areDigits : Text.IsDigits (Text.numeral m) :=
    fun c member => Nat.isDigit_of_mem_toDigits (by decide) (by decide) member
  have value := Text.numeralValue_numeral m
  have short : (Text.numeral m).length ≤ 3 := by
    rw [Text.numeral, Nat.length_toDigits_le_iff (by decide) (by decide)]
    exact Nat.lt_of_le_of_lt small (by decide)
  refine
    ⟨⟨Text.numeral m, Nat.toDigits_ne_nil, areDigits, value.symm ▸ small⟩,
      rfl, congrArg Int.ofNat value, ?_⟩
  exact Nat.le_trans short (by decide)

/-- A count in range has a short spelling; a count of one is left out. -/
theorem FactorSpelling.exists_count
    {i : Int}
    (positive : 1 ≤ i)
    (inRange : i ≤ 255) :
    ∃ count : Option WrittenNumber,
      countChars count = (if i = 1 then [] else Text.signedNumeral i) ∧
        (countValue count : Int) = i ∧
        (∀ n ∈ count, n.value ≠ 0) ∧
        ∀ n ∈ count, n.digits.length ≤ digitLimit := by
  by_cases one : i = 1
  · subst one
    exact ⟨none, rfl, rfl, by simp, by simp⟩
  · obtain ⟨n, digits, value, short⟩ :=
      WrittenNumber.exists_of_int (by omega) inRange
    refine ⟨some n, ?_, value, ?_, ?_⟩
    · rw [if_neg one]
      exact digits
    · rintro m ⟨⟩
      omega
    · rintro m ⟨⟩
      exact short

namespace Modifier

theorem WellFormed.exists_spelling
    {m : Modifier}
    (wellFormed : m.WellFormed) :
    ∃ modifier : Option (Sign × WrittenNumber),
      FactorSpelling.modifierChars modifier = m.chars ∧
        FactorSpelling.modifierValue modifier = m ∧
        ∀ signed ∈ modifier, signed.2.digits.length ≤ digitLimit := by
  rcases m with ⟨operation, operand⟩
  rcases wellFormed with same | ⟨signed, notNegative, inRange⟩
  · cases same
    exact ⟨none, rfl, rfl, by simp⟩
  · obtain ⟨n, digits, value, short⟩ :=
      WrittenNumber.exists_of_int notNegative inRange
    have allShort
        (sign : Sign) :
        ∀ signed ∈ some (sign, n), signed.2.digits.length ≤ digitLimit := by
      rintro signed ⟨⟩
      exact short
    simp only at signed digits value
    rcases signed with rfl | rfl
    · refine ⟨some (.plus, n), ?_, ?_, allShort .plus⟩
      · simp [FactorSpelling.modifierChars, chars, digits, Sign.char]
      · simp [FactorSpelling.modifierValue, value, Sign.operation]
    · refine ⟨some (.minus, n), ?_, ?_, allShort .minus⟩
      · simp [FactorSpelling.modifierChars, chars, digits, Sign.char]
      · simp [FactorSpelling.modifierValue, value, Sign.operation]

end Modifier

theorem Factor.WellFormed.exists_spelling
    {f : Factor}
    (wellFormed : f.WellFormed) :
    ∃ s : FactorSpelling,
      s.chars = f.chars ∧ s.factor = f ∧ s.Short := by
  rcases f with ⟨count, sides, modifier⟩
  rcases wellFormed with
    ⟨⟨countLow, countHigh⟩, ⟨sidesLow, sidesHigh⟩, modifierWellFormed⟩
  obtain ⟨writtenCount, countChars, countValue, notZero, countShort⟩ :=
    FactorSpelling.exists_count countLow countHigh
  obtain ⟨writtenSides, sidesDigits, sidesValue, sidesShort⟩ :=
    WrittenNumber.exists_of_int (Int.le_trans (by decide) sidesLow) sidesHigh
  obtain ⟨writtenModifier, modifierChars, modifierValue, modifierShort⟩ :=
    modifierWellFormed.exists_spelling
  have twoSides : 2 ≤ writtenSides.value :=
    Int.ofNat_le.mp (sidesValue ▸ sidesLow)
  refine ⟨⟨writtenCount, writtenSides, writtenModifier, notZero, twoSides⟩, ?_, ?_, ?_⟩
  · simp [FactorSpelling.chars, Factor.chars, countChars, sidesDigits, modifierChars]
  · simp [FactorSpelling.factor, countValue, sidesValue, modifierValue]
  · intro n member
    simp only [FactorSpelling.numbers, List.mem_append, List.mem_cons,
      Option.mem_toList] at member
    rcases member with inCount | rfl | inModifier
    · exact countShort n inCount
    · exact sidesShort
    · obtain ⟨signed, isSigned, rfl⟩ := Option.map_eq_some_iff.mp inModifier
      exact modifierShort signed isSigned

/-- Factors that can be written have short spellings in their canonical texts. -/
theorem exists_factorSpellings
    {factor : Factor}
    {factors : List Factor}
    (wellFormed : ∀ f ∈ factor :: factors, f.WellFormed) :
    ∃ (first : FactorSpelling) (more : List FactorSpelling),
      first.chars ++ Spelling.moreChars more = factorChars (factor :: factors) ∧
        (first :: more).map FactorSpelling.factor = factor :: factors ∧
        ∀ f ∈ first :: more, f.Short := by
  obtain ⟨first, firstChars, firstValue, firstShort⟩ :=
    (wellFormed factor (.head factors)).exists_spelling
  induction factors generalizing factor first with
  | nil =>
      refine ⟨first, [], ?_, by simp [firstValue], by simpa using firstShort⟩
      simp [Spelling.moreChars, factorChars, firstChars]
  | cons next factors inductionHypothesis =>
      have restWellFormed : ∀ f ∈ next :: factors, f.WellFormed :=
        fun f member => wellFormed f (.tail factor member)
      obtain ⟨second, secondChars, secondValue, secondShort⟩ :=
        (restWellFormed next (.head factors)).exists_spelling
      obtain ⟨head, more, restChars, restValue, restShort⟩ :=
        inductionHypothesis restWellFormed second secondChars secondValue secondShort
      refine ⟨first, head :: more, ?_, ?_, ?_⟩
      · rw [factorChars, ← restChars, ← firstChars]
        · simp [Spelling.moreChars]
        · intro empty
          cases empty
      · rw [List.map_cons, restValue, firstValue]
      · exact List.forall_mem_cons.mpr ⟨firstShort, restShort⟩

namespace DiceCode

/-- A code that can be written is read from its canonical text. -/
theorem WellFormed.read?_text
    {code : DiceCode}
    (wellFormed : code.WellFormed) :
    read? code.text = .ok code := by
  rcases code with ⟨factors, explode⟩
  cases factors with
  | nil =>
      exact absurd rfl wellFormed.nonempty
  | cons factor factors =>
      obtain ⟨first, more, chars, values, short⟩ :=
        exists_factorSpellings wellFormed.factors
      let s : Spelling := ⟨first, more, explode⟩
      have sameText : s.chars = DiceCode.chars ⟨factor :: factors, explode⟩ := by
        change first.chars ++ (Spelling.moreChars more ++ Spelling.explodeChars explode) = _
        rw [← List.append_assoc, chars]
        cases explode <;> rfl
      have sameCode : s.code = ⟨factor :: factors, explode⟩ := by
        change DiceCode.mk ((first :: more).map FactorSpelling.factor) explode = _
        rw [values]
      have read := Spelling.readCode_chars (s := s) short
      unfold read? text
      rw [String.toList_ofList, ← sameText, Text.trimChars_eq_self s.chars_noBlank, read,
        sameCode]

/-- Every code that is read can be written. -/
theorem wellFormed_of_read?
    {text : String}
    {code : DiceCode}
    (read : read? text = .ok code) :
    code.WellFormed := by
  obtain ⟨s, -, rfl⟩ := readCode_sound read
  exact s.code_wellFormed

/--
The codes that are read are well-formed, and those are exactly the codes that
are read from their canonical texts. So the canonical text of a code that was
read stands for the code, and tells it from every other code that is read.
-/
theorem read?_text_iff_wellFormed :
    (∀ text code, read? text = .ok code → code.WellFormed) ∧
      (∀ code : DiceCode, read? code.text = .ok code ↔ code.WellFormed) ∧
      (∀ text code, read? text = .ok code → read? code.text = .ok code) ∧
      ∀ text other code otherCode,
        read? text = .ok code →
        read? other = .ok otherCode →
        (code = otherCode ↔ code.text = otherCode.text) := by
  refine ⟨fun _ _ => wellFormed_of_read?, ?_, ?_, ?_⟩
  · intro code
    exact ⟨wellFormed_of_read?, WellFormed.read?_text⟩
  · intro text code read
    exact (wellFormed_of_read? read).read?_text
  · intro text other code otherCode read otherRead
    constructor
    · exact congrArg DiceCode.text
    · intro sameText
      have again := (wellFormed_of_read? read).read?_text
      have otherAgain := (wellFormed_of_read? otherRead).read?_text
      rw [sameText, otherAgain] at again
      exact (Except.ok.inj again).symm

theorem read?_text_zeroPadded :
    read? " 01d06+0 " = .ok { factors := [{ modifier := { operation := .add } }] } ∧
      read? "d6+0" = .ok { factors := [{ modifier := { operation := .add } }] } := by
  have factorRead :
      readFactor "01d06+0".toList = .ok ({ modifier := { operation := .add } }, []) := by
    rfl
  have trimmed : Text.trimChars " 01d06+0 ".toList = "01d06+0".toList := by
    decide
  have read :
      read? " 01d06+0 " = .ok { factors := [{ modifier := { operation := .add } }] } := by
    unfold read? readCode
    rw [trimmed, readFactors_of_last factorRead (by decide)]
    rfl
  have text :
      DiceCode.text { factors := [{ modifier := { operation := .add } }] } = "d6+0" := by
    decide
  have again := read?_text_iff_wellFormed.2.2.1 _ _ read
  rw [text] at again
  exact ⟨read, again⟩

end DiceCode

end Tabletop
