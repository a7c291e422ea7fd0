import Tabletop.Proofs.Throws.InTurn
import Tabletop.Proofs.Throws.Wrapping

namespace Tabletop

/-!
# Narrowing a product

The result of a code is the product of what its factors come to, narrowed to 16
bits. Narrowing depends on the remainder modulo 65536 alone, so it makes no
difference which factors and which products on the way are narrowed before the
end: `NarrowedProduct.narrow_eq`. The journal is warned once if the exact product
is another number than the result, and not at all otherwise.
-/

theorem narrow_narrow (value : Int) : narrow (narrow value) = narrow value :=
  narrow_eq_self_iff.mpr (narrow_fits value)

/-- Numbers with the same results have the same multiples in results. -/
theorem narrow_mul_congr
    {a b other otherB : Int}
    (same : narrow a = narrow other)
    (sameB : narrow b = narrow otherB) :
    narrow (a * b) = narrow (other * otherB) := by
  rw [← narrow_mul a b, ← narrow_mul other otherB, same, sameB]

/-- Whether a number is another one, as it is or narrowed. -/
def MaybeNarrowed (value result : Int) : Prop :=
  result = value ∨ result = narrow value

theorem MaybeNarrowed.narrow_eq
    {value result : Int}
    (maybe : MaybeNarrowed value result) :
    narrow result = narrow value := by
  rcases maybe with rfl | rfl
  · rfl
  · exact narrow_narrow value

/--
All ways to multiply a product so far by some values in order, where each value
and each product on the way may be narrowed or not.
-/
inductive NarrowedProduct : List Int → Int → Int → Prop where
  | done {product : Int} :
      NarrowedProduct [] product product
  | next
      {value product factor between result : Int}
      {values : List Int}
      (narrowedValue : MaybeNarrowed value factor)
      (narrowedProduct : MaybeNarrowed (product * factor) between)
      (rest : NarrowedProduct values between result) :
      NarrowedProduct (value :: values) product result

/-- It makes no difference where a product is narrowed on the way. -/
theorem NarrowedProduct.narrow_eq
    {values : List Int}
    {product result : Int}
    (multiplied : NarrowedProduct values product result) :
    narrow result = narrow (product * values.prod) := by
  induction multiplied with
  | done =>
      rw [List.prod_nil, Int.mul_one]
  | @next value product factor between result values narrowedValue narrowedProduct rest
      inductionHypothesis =>
      have sameFactor : narrow (product * factor) = narrow (product * value) :=
        narrow_mul_congr rfl narrowedValue.narrow_eq
      calc
        narrow result = narrow (between * values.prod) := inductionHypothesis
        _ = narrow (product * value * values.prod) :=
          narrow_mul_congr (narrowedProduct.narrow_eq.trans sameFactor) rfl
        _ = narrow (product * (value :: values).prod) := by
          rw [List.prod_cons, Int.mul_assoc]

/-- The product of some values, each of them narrowed and every product on the way as well. -/
def narrowedThroughout (values : List Int) : Int :=
  values.foldl (fun product value => narrow (product * narrow value)) 1

theorem foldl_narrowed
    (values : List Int)
    (product : Int) :
    values.foldl (fun product value => narrow (product * narrow value)) (narrow product) =
      narrow (product * values.prod) := by
  induction values generalizing product with
  | nil =>
      rw [List.foldl_nil, List.prod_nil, Int.mul_one]
  | cons value values inductionHypothesis =>
      rw [List.foldl_cons, narrow_mul, inductionHypothesis, List.prod_cons, Int.mul_assoc]

theorem narrowedThroughout_eq (values : List Int) :
    narrowedThroughout values = narrow values.prod := by
  have folded := foldl_narrowed values 1
  rwa [Int.one_mul] at folded

namespace Source

variable {σ : Type} {source : Source σ} {rules : Rules} {code : DiceCode} {state : σ} {result : Int}

/-- A result is the narrowed product of what the factors come to. -/
theorem evaluate_factors
    (rolled : (source.evaluate rules code state).outcome = .ok result) :
    ∃ values,
      (source.throwFactors (rules.forCode code) code.factors { source := state }).outcome =
          .ok values ∧
        result = narrow values.prod ∧
        (source.evaluate rules code state).entries = wrapEntries values.prod := by
  unfold evaluate throwCode at rolled ⊢
  rw [throwProduct_eq_throwFactors] at rolled ⊢
  revert rolled
  rcases source.throwFactors (rules.forCode code) code.factors { source := state } with
    ⟨fault | values, hand⟩
  · nofun
  · intro rolled
    have exact : 1 * values.prod = values.prod := Int.one_mul _
    obtain rfl : narrow (1 * values.prod) = result := Except.ok.inj rolled
    exact ⟨values, rfl, congrArg narrow exact, congrArg wrapEntries exact⟩

/--
Narrowing a result is sound. The result is a signed 16-bit number and agrees with
the exact product of the factors modulo 65536; the same number comes out if the
factors and the products on the way are all narrowed, or any of them. If the
exact product does not fit 16 bits there is one entry, the warning, and else none.
-/
theorem evaluate_narrowed
    (rolled : (source.evaluate rules code state).outcome = .ok result) :
    ∃ values,
      (source.throwFactors (rules.forCode code) code.factors { source := state }).outcome =
          .ok values ∧
        (-32768 ≤ result ∧ result ≤ 32767) ∧
        result % 65536 = values.prod % 65536 ∧
        result = narrowedThroughout values ∧
        (∀ other, NarrowedProduct values 1 other → narrow other = result) ∧
        (source.evaluate rules code state).entries =
          if fitsWord values.prod then [] else [wrapWarning values.prod result] := by
  obtain ⟨values, thrown, rfl, entries⟩ := evaluate_factors rolled
  refine ⟨values, thrown, narrow_fits _, Int.bmod_emod, (narrowedThroughout_eq values).symm, ?_, ?_⟩
  · intro other multiplied
    rw [multiplied.narrow_eq, Int.one_mul]
  · rw [entries, wrapEntries_eq]

/-- The factors come to -510 and to 255, and their product of -130050 is given as 1022. -/
theorem evaluate_narrowed_negative :
    let code : DiceCode :=
      { factors :=
          [{ sides := 255, modifier := { operation := .subtract, operand := 511 } },
            { sides := 255 }] }
    let passage := Well.source.evaluate {} code (.script [1, 255] 0)
    passage.outcome = .ok 1022 ∧
      (1022 : Int) % 65536 = -130050 % 65536 ∧
      1022 = narrowedThroughout [-510, 255] ∧
      passage.entries = [wrapWarning (-130050) 1022] := by
  intro code passage
  have rolled : passage.outcome = .ok 1022 := by
    rfl
  obtain ⟨values, thrown, -, congruent, throughout, -, entries⟩ := evaluate_narrowed rolled
  change Except.ok [-510, 255] = Except.ok values at thrown
  obtain rfl := Except.ok.inj thrown
  exact ⟨rolled, congruent, throughout, entries⟩

end Source

end Tabletop
