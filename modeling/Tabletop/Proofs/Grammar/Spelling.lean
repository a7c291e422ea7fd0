import Tabletop.Proofs.Grammar.WrittenNumber

namespace Tabletop

/-!
# Spellings of dice codes

A spelling is a derivation of a text in the grammar of dice codes:

```text
code   = factor ('x' factor)* ['E']
factor = [number] 'd' number [('+' | '-') number]
```

A written count is not zero and there are at least two sides; both conditions
are part of a factor's spelling. `chars` is the text that is derived and `code`
the dice code that it denotes. The grammar is unambiguous: `Spelling.eq_of_chars`.
-/

/-- The sign in front of an operand. -/
inductive Sign where
  | plus
  | minus
  deriving Repr, DecidableEq, Inhabited

namespace Sign

/-- The character that is written. -/
def char : Sign → Char
  | plus => '+'
  | minus => '-'

/-- The operation that is meant. -/
def operation : Sign → Operation
  | plus => .add
  | minus => .subtract

theorem char_injective
    {a b : Sign}
    (same : a.char = b.char) :
    a = b := by
  cases a with
  | plus =>
      cases b with
      | plus =>
          rfl
      | minus =>
          exact absurd same (by decide)
  | minus =>
      cases b with
      | plus =>
          exact absurd same (by decide)
      | minus =>
          rfl

end Sign

/-- A factor as it is written. -/
structure FactorSpelling where
  count : Option WrittenNumber
  sides : WrittenNumber
  modifier : Option (Sign × WrittenNumber)
  countNotZero : ∀ n ∈ count, n.value ≠ 0
  twoSides : 2 ≤ sides.value

namespace FactorSpelling

/-- The digits of a count; none where it is left out. -/
def countChars : Option WrittenNumber → List Char
  | none => []
  | some n => n.digits

/-- The sign and the digits of a modifier; nothing where it is left out. -/
def modifierChars : Option (Sign × WrittenNumber) → List Char
  | none => []
  | some (sign, n) => sign.char :: n.digits

/-- The text of a factor. -/
def chars (f : FactorSpelling) : List Char :=
  countChars f.count ++ 'd' :: (f.sides.digits ++ modifierChars f.modifier)

/-- The count that is meant; one where it is left out. -/
def countValue : Option WrittenNumber → Nat
  | none => 1
  | some n => n.value

/-- The modifier that is meant; where it is left out, one that keeps the sum. -/
def modifierValue : Option (Sign × WrittenNumber) → Modifier
  | none => { operation := .keep, operand := 0 }
  | some (sign, n) => { operation := sign.operation, operand := n.value }

/-- The factor that is meant. -/
def factor (f : FactorSpelling) : Factor where
  count := countValue f.count
  sides := f.sides.value
  modifier := modifierValue f.modifier

/--
Whether a factor's last number and modifier are complete before the text that
follows: the text continues neither a number nor, where no modifier is written,
with a sign.
-/
structure EndsBefore
    (f : FactorSpelling)
    (rest : List Char) :
    Prop where
  noDigit : Text.NoDigitAhead rest
  noSign : f.modifier = none → ∀ sign : Sign, rest.head? ≠ some sign.char

theorem endsBefore_cons
    (f : FactorSpelling)
    {c : Char}
    {rest : List Char}
    (noDigit : c.isDigit = false)
    (noSign : ∀ sign : Sign, c ≠ sign.char) :
    f.EndsBefore (c :: rest) where
  noDigit := Text.noDigitAhead_cons.mpr noDigit
  noSign _ sign same := noSign sign (Option.some.inj same)

theorem endsBefore_x
    (f : FactorSpelling)
    (rest : List Char) :
    f.EndsBefore ('x' :: rest) :=
  f.endsBefore_cons (by decide) (by rintro (_ | _) <;> decide)

theorem endsBefore_E
    (f : FactorSpelling)
    (rest : List Char) :
    f.EndsBefore ('E' :: rest) :=
  f.endsBefore_cons (by decide) (by rintro (_ | _) <;> decide)

theorem endsBefore_nil (f : FactorSpelling) : f.EndsBefore [] where
  noDigit := Text.noDigitAhead_nil
  noSign _ _ same := nomatch same

theorem count_leadingRun
    (count : Option WrittenNumber)
    (rest : List Char) :
    Text.LeadingRun (countChars count ++ 'd' :: rest) (countChars count) ('d' :: rest) := by
  have ends : Text.NoDigitAhead ('d' :: rest) :=
    Text.noDigitAhead_cons.mpr (by decide)
  cases count with
  | none =>
      exact Text.leadingRun_nil ends
  | some n =>
      exact n.leadingRun ends

/-- The number of sides ends before the modifier or, without one, with the factor. -/
theorem EndsBefore.sides
    {f : FactorSpelling}
    {rest : List Char}
    (ends : f.EndsBefore rest) :
    Text.NoDigitAhead (modifierChars f.modifier ++ rest) := by
  cases f.modifier with
  | none =>
      exact ends.noDigit
  | some signed =>
      rcases signed with ⟨sign, n⟩
      cases sign <;> exact Text.noDigitAhead_cons.mpr (by decide)

theorem count_eq_of_chars
    {a b : Option WrittenNumber}
    (same : countChars a = countChars b) :
    a = b := by
  cases a with
  | none =>
      cases b with
      | none =>
          rfl
      | some n =>
          exact absurd same.symm n.nonempty
  | some m =>
      cases b with
      | none =>
          exact absurd same m.nonempty
      | some n =>
          rw [WrittenNumber.eq_of_digits same]

theorem modifier_append_inj
    {f g : FactorSpelling}
    {rest other : List Char}
    (same :
      modifierChars f.modifier ++ rest =
        modifierChars g.modifier ++ other)
    (ends : f.EndsBefore rest)
    (otherEnds : g.EndsBefore other) :
    f.modifier = g.modifier ∧ rest = other := by
  have noSign := ends.noSign
  have otherNoSign := otherEnds.noSign
  revert same noSign otherNoSign
  cases f.modifier with
  | none =>
      cases g.modifier with
      | none =>
          intro same _ _
          exact ⟨rfl, same⟩
      | some signed =>
          intro same noSign _
          have sameText : rest = signed.1.char :: (signed.2.digits ++ other) := same
          exact absurd (by rw [sameText]; rfl) (noSign rfl signed.1)
  | some signed =>
      cases g.modifier with
      | none =>
          intro same _ otherNoSign
          have sameText : other = signed.1.char :: (signed.2.digits ++ rest) := same.symm
          exact absurd (by rw [sameText]; rfl) (otherNoSign rfl signed.1)
      | some otherSigned =>
          intro same _ _
          obtain ⟨signSame, digitsSame⟩ := List.cons.inj same
          obtain ⟨numberSame, restSame⟩ :=
            WrittenNumber.append_inj digitsSame ends.noDigit otherEnds.noDigit
          refine ⟨?_, restSame⟩
          rw [Option.some.injEq]
          exact Prod.ext (Sign.char_injective signSame) numberSame

theorem eq_of_parts
    {f g : FactorSpelling}
    (count : f.count = g.count)
    (sides : f.sides = g.sides)
    (modifier : f.modifier = g.modifier) :
    f = g := by
  cases f
  cases g
  cases count
  cases sides
  cases modifier
  rfl

/-- A text begins with at most one factor that ends before what follows it. -/
theorem append_inj
    {f g : FactorSpelling}
    {rest other : List Char}
    (same : f.chars ++ rest = g.chars ++ other)
    (ends : f.EndsBefore rest)
    (otherEnds : g.EndsBefore other) :
    f = g ∧ rest = other := by
  simp only [chars, List.append_assoc, List.cons_append] at same
  have leading := count_leadingRun f.count (f.sides.digits ++ (modifierChars f.modifier ++ rest))
  rw [same] at leading
  obtain ⟨countSame, behindCount⟩ := leading.unique (count_leadingRun g.count _)
  obtain ⟨-, behindD⟩ := List.cons.inj behindCount
  obtain ⟨sidesSame, behindSides⟩ :=
    WrittenNumber.append_inj behindD ends.sides otherEnds.sides
  obtain ⟨modifierSame, restSame⟩ :=
    modifier_append_inj behindSides ends otherEnds
  exact ⟨eq_of_parts (count_eq_of_chars countSame) sidesSame modifierSame, restSame⟩

/-- A factor is written with digits, a `d` and a sign. -/
theorem mem_chars
    (f : FactorSpelling)
    {c : Char}
    (member : c ∈ f.chars) :
    c.isDigit = true ∨ c = 'd' ∨ ∃ sign : Sign, c = sign.char := by
  simp only [chars, List.mem_append, List.mem_cons] at member
  rcases member with inCount | isD | inSides | inModifier
  · revert inCount
    cases f.count with
    | none =>
        nofun
    | some n =>
        exact fun inDigits => .inl (n.areDigits c inDigits)
  · exact .inr (.inl isD)
  · exact .inl (f.sides.areDigits c inSides)
  · revert inModifier
    cases f.modifier with
    | none =>
        nofun
    | some signed =>
        intro inModifier
        rcases List.mem_cons.mp inModifier with isSign | inDigits
        · exact .inr (.inr ⟨signed.1, isSign⟩)
        · exact .inl (signed.2.areDigits c inDigits)

theorem chars_noBlank
    (f : FactorSpelling)
    {c : Char}
    (member : c ∈ f.chars) :
    Text.isBlank c = false := by
  rcases f.mem_chars member with digit | rfl | ⟨sign, rfl⟩
  · exact Text.isBlank_of_isDigit digit
  · decide
  · cases sign <;> decide

theorem chars_noE (f : FactorSpelling) :
    'E' ∉ f.chars := by
  intro member
  rcases f.mem_chars member with digit | isD | ⟨sign, isSign⟩
  · exact absurd digit (by decide)
  · exact absurd isD (by decide)
  · cases sign <;> exact absurd isSign (by decide)

end FactorSpelling

/-- A dice code as it is written. -/
structure Spelling where
  first : FactorSpelling
  more : List FactorSpelling
  explode : Bool

namespace Spelling

/-- The texts of the factors behind the first, each with an `x` in front. -/
def moreChars (more : List FactorSpelling) : List Char :=
  more.flatMap fun f => 'x' :: f.chars

/-- The `E` behind the factors, if there is one. -/
def explodeChars : Bool → List Char
  | true => ['E']
  | false => []

theorem explodeChars_injective
    {explode other : Bool}
    (same : explodeChars explode = explodeChars other) :
    explode = other := by
  cases explode with
  | true =>
      cases other with
      | true =>
          rfl
      | false =>
          cases same
  | false =>
      cases other with
      | true =>
          cases same
      | false =>
          rfl

/-- The text that is derived. -/
def chars (s : Spelling) : List Char :=
  s.first.chars ++ (moreChars s.more ++ explodeChars s.explode)

/-- The dice code that is meant: the factors in the order of the text. -/
def code (s : Spelling) : DiceCode where
  factors := (s.first :: s.more).map FactorSpelling.factor
  explode := s.explode

theorem endsBefore_more
    (f : FactorSpelling)
    (more : List FactorSpelling)
    (explode : Bool) :
    f.EndsBefore (moreChars more ++ explodeChars explode) := by
  cases more with
  | nil =>
      cases explode with
      | true =>
          exact f.endsBefore_E []
      | false =>
          exact f.endsBefore_nil
  | cons g rest =>
      exact f.endsBefore_x _

theorem chars_noBlank (s : Spelling) :
    ∀ c ∈ s.chars, Text.isBlank c = false := by
  intro c member
  simp only [chars, moreChars, List.mem_append, List.mem_flatMap, List.mem_cons] at member
  rcases member with inFirst | ⟨f, -, rfl | inFactor⟩ | inExplode
  · exact s.first.chars_noBlank inFirst
  · decide
  · exact f.chars_noBlank inFactor
  · revert inExplode
    cases s.explode with
    | true =>
        intro inExplode
        cases List.mem_singleton.mp inExplode
        decide
    | false =>
        nofun

/-- An `E` is written in a code only if sixes explode. -/
theorem explode_of_mem
    (s : Spelling)
    (member : 'E' ∈ s.chars) :
    s.explode = true := by
  simp only [chars, moreChars, List.mem_append, List.mem_flatMap, List.mem_cons] at member
  rcases member with inFirst | ⟨f, -, isX | inFactor⟩ | inExplode
  · exact absurd inFirst s.first.chars_noE
  · exact absurd isX (by decide)
  · exact absurd inFactor f.chars_noE
  · revert inExplode
    cases s.explode with
    | true =>
        exact fun _ => rfl
    | false =>
        nofun

/-- The text behind the first factor determines the other factors and the `E`. -/
theorem more_eq_of_chars
    {more others : List FactorSpelling}
    {explode otherExplode : Bool}
    (same :
      moreChars more ++ explodeChars explode =
        moreChars others ++ explodeChars otherExplode) :
    more = others ∧ explode = otherExplode := by
  induction more generalizing others with
  | nil =>
      cases others with
      | nil =>
          have sameExplode := explodeChars_injective same
          exact ⟨rfl, sameExplode⟩
      | cons g rest =>
          cases explode <;> simp [moreChars, explodeChars] at same
  | cons f rest inductionHypothesis =>
      cases others with
      | nil =>
          cases otherExplode <;> simp [moreChars, explodeChars] at same
      | cons g otherRest =>
          have behindX :
              f.chars ++ (moreChars rest ++ explodeChars explode) =
                g.chars ++ (moreChars otherRest ++ explodeChars otherExplode) := by
            simpa [moreChars] using same
          obtain ⟨rfl, restSame⟩ :=
            FactorSpelling.append_inj behindX
              (endsBefore_more f rest explode)
              (endsBefore_more g otherRest otherExplode)
          obtain ⟨rfl, rfl⟩ := inductionHypothesis restSame
          exact ⟨rfl, rfl⟩

/-- A text has at most one spelling. -/
theorem eq_of_chars
    {s t : Spelling}
    (same : s.chars = t.chars) :
    s = t := by
  rcases s with ⟨first, more, explode⟩
  rcases t with ⟨otherFirst, others, otherExplode⟩
  obtain ⟨rfl, moreSame⟩ :=
    FactorSpelling.append_inj same
      (endsBefore_more first more explode)
      (endsBefore_more otherFirst others otherExplode)
  obtain ⟨rfl, rfl⟩ := more_eq_of_chars moreSame
  rfl

end Spelling

end Tabletop
