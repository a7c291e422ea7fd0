import Tabletop.Proofs.Throws.Bounded
import Tabletop.Proofs.Throws.InTurn

namespace Tabletop

/-!
# Modifiers leave the dice alone

What is asked of a source depends on the counts and the sides of the factors and on
the faces that it has shown, and on nothing that is calculated from them. Throwing
is therefore taken apart: the dice are thrown and added up (`throwSums`), and only
the sums are modified and multiplied. Codes that differ in their modifiers alone
leave the same trace: `rollTrace_modifiers`.
-/

/-- How many dice a factor has, and of how many sides. -/
def Factor.dice (factor : Factor) : Int × Int :=
  (factor.count, factor.sides)

/-- The product of the factors whose dice come to the given sums. -/
def modifiedProduct
    (factors : List Factor)
    (sums : List Int) :
    Int :=
  (List.zipWith (fun factor sum => factor.modifier.apply sum) factors sums).prod

/--
What is seen of a roll besides its result: that it has one or how it fails, the dice
that are asked for, the draws that are answered, the remarks, and the state that is left.
-/
structure RollTrace (σ : Type) where
  ended : Except Failure Unit
  asked : List Int
  drawn : List (Int × Int)
  remarks : List Remark
  left : σ

namespace Source

variable {σ : Type} (source : Source σ) (rules : Rules)

/-- Rolls a code for what is seen of it besides its result. -/
def rollTrace
    (code : DiceCode)
    (state : σ) :
    RollTrace σ where
  ended := (source.evaluate rules code state).outcome.map fun _ => ()
  asked := source.diceAsked rules code state
  drawn := (source.recorded.evaluate rules code { inner := state }).left.rolls.toList
  remarks := (source.evaluate rules code state).remarks
  left := (source.evaluate rules code state).left

/-- Throws dice from left to right and lists their sums; nothing is modified or multiplied. -/
def throwSums : List (Int × Int) → Hand σ → Thrown σ (List Int)
  | [], hand =>
      ⟨.ok [], hand⟩
  | (count, sides) :: rest, hand =>
      (source.throwSum (rules.position sides) count.toNat 0 hand).andThen fun sum hand =>
        (throwSums rest hand).map (sum :: ·)

/-- What factors come to is calculated from the sums of their dice. -/
theorem throwFactors_eq_throwSums
    (factors : List Factor)
    (hand : Hand σ) :
    source.throwFactors rules factors hand =
      (source.throwSums rules (factors.map Factor.dice) hand).map
        (List.zipWith (fun factor sum => factor.modifier.apply sum) factors) := by
  induction factors generalizing hand with
  | nil =>
      rfl
  | cons factor factors inductionHypothesis =>
      rw [List.map_cons, throwFactors, throwFactor, Factor.dice, throwSums]
      rcases source.throwSum (rules.position factor.sides) factor.count.toNat 0 hand with
        ⟨fault | sum, hand⟩
      · rfl
      · simp only [Thrown.map, Thrown.andThen_ok, inductionHypothesis]
        rcases source.throwSums rules (factors.map Factor.dice) hand with ⟨fault | sums, hand⟩ <;> rfl

/-- Throws the dice of a code and lists the sums of its factors. -/
def codeSums
    (code : DiceCode)
    (state : σ) :
    Thrown σ (List Int) :=
  source.throwSums (rules.forCode code) (code.factors.map Factor.dice) { source := state }

/-- The modifiers of a code and everything that is multiplied are left out of its sums. -/
theorem codeSums_congr
    {code other : DiceCode}
    (sameExplode : code.explode = other.explode)
    (sameDice : code.factors.map Factor.dice = other.factors.map Factor.dice)
    (state : σ) :
    source.codeSums rules code state = source.codeSums rules other state := by
  unfold codeSums Rules.forCode
  rw [sameExplode, sameDice]

variable (code : DiceCode) (state : σ)

theorem throwCode_eq_codeSums :
    source.throwCode rules code state =
      (source.codeSums rules code state).map (modifiedProduct code.factors) := by
  unfold throwCode codeSums
  rw [throwProduct_eq_throwFactors, throwFactors_eq_throwSums]
  rcases source.throwSums (rules.forCode code) (code.factors.map Factor.dice) { source := state } with
    ⟨fault | sums, hand⟩
  · rfl
  · simp only [Thrown.map, Thrown.andThen_ok, Int.one_mul]
    rfl

theorem throwCode_hand :
    (source.throwCode rules code state).hand = (source.codeSums rules code state).hand := by
  rw [throwCode_eq_codeSums, Thrown.map_hand]

/-- A result is the modified product of the sums, narrowed. -/
theorem evaluate_outcome_eq_codeSums :
    (source.evaluate rules code state).outcome =
      ((source.codeSums rules code state).outcome.mapError Failure.fault).map
        fun sums => narrow (modifiedProduct code.factors sums) := by
  rw [evaluate_outcome, throwCode_eq_codeSums, Thrown.map_outcome]
  cases (source.codeSums rules code state).outcome <;> rfl

/-- Whether a roll has a result, and how it fails, shows in its sums. -/
theorem evaluate_ended :
    (source.evaluate rules code state).outcome.map (fun _ => ()) =
      ((source.codeSums rules code state).outcome.mapError Failure.fault).map fun _ => () := by
  rw [evaluate_outcome_eq_codeSums]
  cases (source.codeSums rules code state).outcome <;> rfl

end Source

/--
Two codes with the same dice and the same `E` leave the same trace, from every source and
under all rules: they ask for the same dice and draw the same faces, the same is remarked
on, and both have a result or fail in the same way. The dice of both come to the same sums,
from which the results are calculated.
-/
theorem rollTrace_modifiers
    {σ : Type}
    {code other : DiceCode}
    (sameExplode : code.explode = other.explode)
    (sameDice : code.factors.map Factor.dice = other.factors.map Factor.dice)
    (source : Source σ)
    (rules : Rules)
    (state : σ) :
    source.rollTrace rules code state = source.rollTrace rules other state ∧
      ∃ sums : Except Failure (List Int),
        (source.evaluate rules code state).outcome =
            sums.map (fun sums => narrow (modifiedProduct code.factors sums)) ∧
          (source.evaluate rules other state).outcome =
            sums.map (fun sums => narrow (modifiedProduct other.factors sums)) := by
  have sums := source.codeSums_congr rules sameExplode sameDice state
  have watchedSums := source.watched.codeSums_congr rules sameExplode sameDice { inner := state }
  have recordedSums := source.recorded.codeSums_congr rules sameExplode sameDice { inner := state }
  constructor
  · simp only [Source.rollTrace, Source.diceAsked, Source.evaluate_ended, Source.evaluate_left,
      Source.evaluate_remarks, Source.throwCode_hand, sums, watchedSums, recordedSums]
  · refine ⟨_, source.evaluate_outcome_eq_codeSums rules code state, ?_⟩
    rw [sums]
    exact source.evaluate_outcome_eq_codeSums rules other state

/-- The first factor of `d6-3xd4` comes to zero, and the second is thrown as in `d6xd4`. -/
theorem rollTrace_modifiers_zeroFactor :
    let zeroed : DiceCode :=
      { factors := [{ modifier := { operation := .subtract, operand := 3 } }, { sides := 4 }] }
    let plain : DiceCode := { factors := [{}, { sides := 4 }] }
    zeroed.factors.map Factor.dice = plain.factors.map Factor.dice ∧
      (Well.source.evaluate {} zeroed (.script [3, 2, 5] 0)).outcome = .ok 0 ∧
      Well.source.rollTrace {} zeroed (.script [3, 2, 5] 0) =
        Well.source.rollTrace {} plain (.script [3, 2, 5] 0) ∧
      (Well.source.rollTrace {} plain (.script [3, 2, 5] 0)).drawn = [(6, 3), (4, 2)] := by
  intro zeroed plain
  have sameDice : zeroed.factors.map Factor.dice = plain.factors.map Factor.dice := by
    rfl
  have same :=
    @rollTrace_modifiers _ zeroed plain rfl sameDice Well.source {} (.script [3, 2, 5] 0)
  exact ⟨sameDice, rfl, same.1, rfl⟩

end Tabletop
