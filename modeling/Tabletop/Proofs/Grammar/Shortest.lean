import Tabletop.Proofs.Grammar.Canonical
import Tabletop.Proofs.Grammar.Joined

namespace Tabletop

/-!
# Canonical texts are shortest

Of all texts that are read as a code, its canonical text is the shortest and the
only one of its length. Part by part, what is written is the same as what was
read, or shorter: a numeral has no zeros in front, a count of one is left out,
and there are no blanks. A modifier keeps its sign, also before a zero.
-/

namespace Text

/-- Whether a text is another one, or has fewer characters. -/
def SameOrShorter (cs other : List Char) : Prop :=
  cs = other ∨ cs.length < other.length

namespace SameOrShorter

variable {cs other behind otherBehind last : List Char}

theorem refl (cs : List Char) : SameOrShorter cs cs :=
  .inl rfl

theorem length_le (shorter : SameOrShorter cs other) :
    cs.length ≤ other.length := by
  rcases shorter with rfl | fewer
  · exact Nat.le_refl _
  · exact Nat.le_of_lt fewer

theorem eq_of_length
    (shorter : SameOrShorter cs other)
    (sameLength : cs.length = other.length) :
    cs = other :=
  shorter.resolve_right (Nat.not_lt.mpr (Nat.le_of_eq sameLength.symm))

theorem of_length_le
    (notLonger : cs.length ≤ other.length)
    (same : cs.length = other.length → cs = other) :
    SameOrShorter cs other :=
  (Nat.lt_or_eq_of_le notLonger).symm.imp_left same

theorem trans
    (shorter : SameOrShorter cs other)
    (otherShorter : SameOrShorter other last) :
    SameOrShorter cs last := by
  apply of_length_le (Nat.le_trans shorter.length_le otherShorter.length_le)
  intro sameLength
  have first := shorter.length_le
  have second := otherShorter.length_le
  rw [shorter.eq_of_length (by omega), otherShorter.eq_of_length (by omega)]

/-- Two parts that are the same or shorter make a whole that is. -/
theorem append
    (shorter : SameOrShorter cs other)
    (behindShorter : SameOrShorter behind otherBehind) :
    SameOrShorter (cs ++ behind) (other ++ otherBehind) := by
  have first := shorter.length_le
  have second := behindShorter.length_le
  apply of_length_le
  · simp only [List.length_append]
    omega
  · intro sameLength
    simp only [List.length_append] at sameLength
    rw [shorter.eq_of_length (by omega), behindShorter.eq_of_length (by omega)]

theorem cons
    (shorter : SameOrShorter cs other)
    (c : Char) :
    SameOrShorter (c :: cs) (c :: other) :=
  (refl [c]).append shorter

theorem of_infix (within : cs <:+: other) : SameOrShorter cs other :=
  of_length_le within.length_le within.eq_of_length

end SameOrShorter

/-- Two runs of as many digits that write the same number are the same. -/
theorem numeralValue_inj_of_length
    {digits others : List Char}
    (areDigits : IsDigits digits)
    (othersAreDigits : IsDigits others)
    (sameLength : digits.length = others.length)
    (sameValue : numeralValue digits = numeralValue others) :
    digits = others := by
  induction digits generalizing others with
  | nil =>
      exact (List.length_eq_zero_iff.mp sameLength.symm).symm
  | cons c rest inductionHypothesis =>
      cases others with
      | nil =>
          cases sameLength
      | cons d behind =>
          have sameRestLength : rest.length = behind.length :=
            Nat.succ.inj sameLength
          obtain ⟨cDigit, restDigits⟩ := List.forall_mem_cons.mp areDigits
          obtain ⟨dDigit, behindDigits⟩ := List.forall_mem_cons.mp othersAreDigits
          have restBound := numeralValue_lt restDigits
          have behindBound := numeralValue_lt behindDigits
          rw [numeralValue_cons, numeralValue_cons, sameRestLength] at sameValue
          rw [sameRestLength] at restBound
          -- The first digit is the quotient by its place, and the others write the remainder.
          have sameFirst := congrArg (· / 10 ^ behind.length) sameValue
          have sameOthers := congrArg (· % 10 ^ behind.length) sameValue
          have place : 0 < 10 ^ behind.length := Nat.pow_pos (by decide)
          simp only [Nat.mul_add_div place, Nat.div_eq_of_lt restBound,
            Nat.div_eq_of_lt behindBound, Nat.add_zero] at sameFirst
          simp only [Nat.mul_add_mod, Nat.mod_eq_of_lt restBound,
            Nat.mod_eq_of_lt behindBound] at sameOthers
          have cLow := (Char.isDigit_iff_toNat.mp cDigit).1
          have dLow := (Char.isDigit_iff_toNat.mp dDigit).1
          have sameChar : c = d := Char.toNat_inj.mp (by omega)
          rw [sameChar, inductionHypothesis restDigits behindDigits sameRestLength sameOthers]

/-- The numeral of a number is its shortest run of digits. -/
theorem numeral_sameOrShorter
    {digits : List Char}
    (nonempty : digits ≠ [])
    (areDigits : IsDigits digits) :
    SameOrShorter (numeral (numeralValue digits)) digits := by
  have numeralDigits : IsDigits (numeral (numeralValue digits)) :=
    fun c member => Nat.isDigit_of_mem_toDigits (by decide) (by decide) member
  apply SameOrShorter.of_length_le
  · exact (Nat.length_toDigits_le_iff (by decide) (List.length_pos_iff.mpr nonempty)).mpr
      (numeralValue_lt areDigits)
  · intro sameLength
    exact numeralValue_inj_of_length numeralDigits areDigits sameLength
      (numeralValue_numeral _)

end Text

theorem WrittenNumber.numeral_sameOrShorter (n : WrittenNumber) :
    Text.SameOrShorter (Text.signedNumeral (n.value : Int)) n.digits :=
  Text.numeral_sameOrShorter n.nonempty n.areDigits

namespace FactorSpelling

theorem count_sameOrShorter (count : Option WrittenNumber) :
    Text.SameOrShorter
      (if (countValue count : Int) = 1 then [] else Text.signedNumeral (countValue count))
      (countChars count) := by
  cases count with
  | none =>
      exact .refl []
  | some n =>
      split
      · exact .inr (List.length_pos_iff.mpr n.nonempty)
      · exact n.numeral_sameOrShorter

theorem modifier_sameOrShorter (modifier : Option (Sign × WrittenNumber)) :
    Text.SameOrShorter (modifierValue modifier).chars (modifierChars modifier) := by
  rcases modifier with _ | ⟨_ | _, n⟩
  · exact .refl []
  · exact n.numeral_sameOrShorter.cons '+'
  · exact n.numeral_sameOrShorter.cons '-'

theorem factor_sameOrShorter (f : FactorSpelling) :
    Text.SameOrShorter f.factor.chars f.chars :=
  (count_sameOrShorter f.count).append
    ((f.sides.numeral_sameOrShorter.append (modifier_sameOrShorter f.modifier)).cons 'd')

end FactorSpelling

namespace Spelling

theorem factors_sameOrShorter
    (first : FactorSpelling)
    (more : List FactorSpelling) :
    Text.SameOrShorter
      (factorChars ((first :: more).map FactorSpelling.factor))
      (first.chars ++ moreChars more) := by
  induction more generalizing first with
  | nil =>
      rw [moreChars, List.flatMap_nil, List.append_nil]
      exact first.factor_sameOrShorter
  | cons next more inductionHypothesis =>
      rw [moreChars, List.flatMap_cons, List.cons_append]
      exact first.factor_sameOrShorter.append ((inductionHypothesis next).cons 'x')

/-- What is written of a code is the same as any spelling of it, or shorter. -/
theorem code_sameOrShorter (s : Spelling) :
    Text.SameOrShorter s.code.chars s.chars := by
  have explode : (if s.code.explode then ['E'] else []) = explodeChars s.explode := by
    cases shape : s.explode <;> simp [code, shape, explodeChars]
  rw [chars, ← List.append_assoc, DiceCode.chars, explode]
  exact (factors_sameOrShorter s.first s.more).append (.refl _)

end Spelling

namespace DiceCode

/-- The canonical text of the code that a text writes, or the first fault in it. -/
def normalize? (text : String) : Except Misread String :=
  (read? text).map DiceCode.text

theorem chars_sameOrShorter
    {text : String}
    {code : DiceCode}
    (read : read? text = .ok code) :
    Text.SameOrShorter code.chars text.toList := by
  obtain ⟨s, spelled, rfl⟩ := readCode_sound read
  have trimmed := Text.SameOrShorter.of_infix (Text.trimChars_infix text.toList)
  rw [← spelled] at trimmed
  exact s.code_sameOrShorter.trans trimmed

/--
The canonical text of a code is read as the code. Every text that is read as the
code is at least as long, and is the canonical text if it is no longer. So to
normalize lengthens no text and changes nothing the second time.
-/
theorem text_uniqueShortest
    {text : String}
    {code : DiceCode}
    (read : read? text = .ok code) :
    read? code.text = .ok code ∧
      code.text.length ≤ text.length ∧
      (code.text.length = text.length → text = code.text) ∧
      normalize? text = .ok code.text ∧
      normalize? code.text = .ok code.text := by
  have readsBack := (wellFormed_of_read? read).read?_text
  have shorter := chars_sameOrShorter read
  have sameChars : code.text.toList = code.chars := String.toList_ofList
  rw [← sameChars] at shorter
  refine ⟨readsBack, ?_, ?_, ?_, ?_⟩
  · rw [← String.length_toList, ← String.length_toList]
    exact shorter.length_le
  · intro sameLength
    rw [← String.length_toList, ← String.length_toList] at sameLength
    exact (String.toList_inj.mp (shorter.eq_of_length sameLength)).symm
  · rw [normalize?, read]
    rfl
  · rw [normalize?, readsBack]
    rfl

/-- A written count of one, zeros in front, an operand of zero, and a blank at either end. -/
theorem text_uniqueShortest_padded :
    read? "\t01d06+0 " = .ok { factors := [{ modifier := { operation := .add } }] } ∧
      "d6+0".length ≤ "\t01d06+0 ".length ∧
      normalize? "\t01d06+0 " = .ok "d6+0" ∧
      normalize? "d6+0" = .ok "d6+0" := by
  have read :
      read? "\t01d06+0 " = .ok { factors := [{ modifier := { operation := .add } }] } :=
    @read?_of_factor _ _ _ false rfl rfl
  have canonical :
      DiceCode.text { factors := [{ modifier := { operation := .add } }] } = "d6+0" := by
    decide
  obtain ⟨-, notLonger, -, normalized, again⟩ := text_uniqueShortest read
  rw [canonical] at notLonger normalized again
  exact ⟨read, notLonger, normalized, again⟩

end DiceCode

end Tabletop
