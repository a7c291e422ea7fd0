import Mathlib.Data.List.Forall2
import Mathlib.Algebra.BigOperators.Group.List.Defs
import Tabletop.Proofs.Grammar.Canonical
import Tabletop.Proofs.Grammar.Joined
import Tabletop.Proofs.Throws.FactorOutcomes
import Tabletop.Proofs.Throws.Trace

namespace Tabletop

/-!
# Which codes can wrap

Without exploding dice every factor lies between two ends, and a product of factors
is linear in each of them, so it fits 16 bits for all dice if it does for every
choice of ends. With an exploding die the product has no bound, since every other
factor can be thrown so that it is not zero. The main statement is
`evaluate_warned_iff_canWrap`.
-/

/-- The warning that a result is given as another number. -/
def wrapWarning (product wrapped : Int) : Entry where
  channel := Channel.thrower
  severity := Severity.warning
  message := "result " ++ Text.showInt product ++ " does not fit in 16 bits, wrapped to " ++
    Text.showInt wrapped

/-- One warning is made if a product does not fit 16 bits, and else none. -/
theorem wrapEntries_eq (product : Int) :
    wrapEntries product =
      if fitsWord product then [] else [wrapWarning product (narrow product)] := by
  unfold wrapEntries
  simp only [narrow_eq_self_iff]
  rfl

/-- Whether the journal is warned that a result does not fit 16 bits. -/
def Passage.Warned
    {σ α : Type}
    (passage : Passage σ α) :
    Prop :=
  ∃ product wrapped, wrapWarning product wrapped ∈ passage.entries

namespace Factor

variable (rules : Rules) (factor : Factor)

/-- The value of a factor when all dice show a one. -/
def least : Int :=
  factor.modifier.apply
    (if factor.sides = 66 ∧ rules.whole66 = false then 11 * factor.count else factor.count * 1)

/-- The value of a factor when all dice show as much as they can without exploding. -/
def greatest : Int :=
  factor.modifier.apply
    (if factor.sides = 66 ∧ rules.whole66 = false then 66 * factor.count
      else factor.count * factor.sides)

/-- Whether a number is one of the two ends of a factor. -/
def IsEnd (value : Int) : Prop :=
  value = factor.least rules ∨ value = factor.greatest rules

/-- Whether a factor has at least one die, of at least two sides that can be written. -/
structure HasDice : Prop where
  count : 1 ≤ factor.count
  sides : 2 ≤ factor.sides
  writable : Text.Writable factor.sides

end Factor

/-- Whether a code has a die whose sixes explode under the rules. -/
def DiceCode.SixesExplode
    (rules : Rules)
    (code : DiceCode) :
    Prop :=
  (rules.forCode code).explode = true ∧ ∃ factor ∈ code.factors, factor.sides = 6

/--
Whether a code has an exploding die, or its factors have ends with a product that
does not fit 16 bits.
-/
def DiceCode.CanWrap
    (rules : Rules)
    (code : DiceCode) :
    Prop :=
  code.SixesExplode rules ∨
    ∃ ends,
      List.Forall₂ (Factor.IsEnd rules) code.factors ends ∧ ¬ fitsWord ends.prod

section

variable {rules : Rules} {factor : Factor} {factors : List Factor} {faces : List Int}
variable {sum product value : Int}

namespace Factor.HasDice

theorem count_toNat (dice : factor.HasDice) :
    ((factor.count.toNat : Nat) : Int) = factor.count :=
  Int.toNat_of_nonneg (Int.le_trans (by decide) dice.count)

theorem someSides (dice : factor.HasDice) :
    1 ≤ factor.sides :=
  Int.le_trans (by decide) dice.sides

theorem canSum_single_iff
    {count : Nat}
    {sum : Int}
    (dice : factor.HasDice)
    (notPaired : ¬ (factor.sides = 66 ∧ rules.whole66 = false))
    (notExploding : ¬ (rules.explode = true ∧ factor.sides = 6)) :
    CanSum rules factor.sides count sum ↔ count ≤ sum ∧ sum ≤ count * factor.sides :=
  Tabletop.canSum_single_iff notPaired notExploding (accepted_iff dice.writable) dice.someSides

/-- Without exploding dice a factor lies between its ends. -/
theorem value_between
    (dice : factor.HasDice)
    (notExploding : ¬ (rules.explode = true ∧ factor.sides = 6))
    (canCome : factor.CanCome rules value) :
    factor.least rules ≤ value ∧ value ≤ factor.greatest rules := by
  obtain ⟨sum, canSum, rfl⟩ := canCome
  have countNat := dice.count_toNat
  unfold least greatest
  simp only [Modifier.apply_eq_add_shift]
  by_cases paired : factor.sides = 66 ∧ rules.whole66 = false
  · obtain ⟨tens, units, range⟩ := (canSum_pair_iff paired).mp canSum
    rw [if_pos paired, if_pos paired]
    omega
  · have range := (dice.canSum_single_iff paired notExploding).mp canSum
    rw [countNat] at range
    rw [if_neg paired, if_neg paired]
    omega

/-- Without exploding dice a factor can come to both of its ends. -/
theorem canCome_end
    (dice : factor.HasDice)
    (notExploding : ¬ (rules.explode = true ∧ factor.sides = 6))
    (isEnd : factor.IsEnd rules value) :
    factor.CanCome rules value := by
  have countNat := dice.count_toNat
  by_cases paired : factor.sides = 66 ∧ rules.whole66 = false
  · simp only [IsEnd, least, greatest, if_pos paired] at isEnd
    rcases isEnd with rfl | rfl
    · exact ⟨_, (canSum_pair_iff paired).mpr ⟨factor.count, factor.count, by omega⟩, rfl⟩
    · exact ⟨_, (canSum_pair_iff paired).mpr ⟨6 * factor.count, 6 * factor.count, by omega⟩, rfl⟩
  · have order : factor.count * 1 ≤ factor.count * factor.sides :=
      Int.mul_le_mul_of_nonneg_left dice.someSides (by omega)
    simp only [IsEnd, least, greatest, if_neg paired] at isEnd
    rcases isEnd with rfl | rfl
    · refine ⟨_, (dice.canSum_single_iff paired notExploding).mpr ?_, rfl⟩
      rw [countNat]
      omega
    · refine ⟨_, (dice.canSum_single_iff paired notExploding).mpr ?_, rfl⟩
      rw [countNat]
      omega

/-- An exploding die makes its factor as large as one likes. -/
theorem exists_large
    (dice : factor.HasDice)
    (exploding : rules.explode = true ∧ factor.sides = 6)
    (bound : Nat) :
    ∃ value, factor.CanCome rules value ∧ bound < value.natAbs := by
  have someDice := dice.count
  let sum : Int := 6 * (bound + factor.modifier.shift.natAbs + factor.count) + 1
  have canSum : CanSum rules factor.sides factor.count.toNat sum := by
    by_cases one : factor.count.toNat = 1
    · rw [one, canSum_one_iff, canBeWorth_exploding_iff exploding]
      omega
    · rw [canSum_exploding_iff exploding (by omega)]
      omega
  refine ⟨_, ⟨sum, canSum, rfl⟩, ?_⟩
  rw [Modifier.apply_eq_add_shift]
  omega

/-- The dice of a factor can be thrown in two ways, and one of them does not come to zero. -/
theorem exists_ne_zero
    (dice : factor.HasDice)
    (rules : Rules) :
    ∃ value, factor.CanCome rules value ∧ value ≠ 0 := by
  have someDice := dice.count
  have countNat := dice.count_toNat
  have two :
      ∃ sum,
        CanSum rules factor.sides factor.count.toNat sum ∧
          CanSum rules factor.sides factor.count.toNat (sum + 1) := by
    by_cases exploding : rules.explode = true ∧ factor.sides = 6
    · by_cases one : factor.count.toNat = 1
      · simp only [one, canSum_one_iff, canBeWorth_exploding_iff exploding]
        exact ⟨1, by omega⟩
      · simp only [canSum_exploding_iff exploding (show 2 ≤ factor.count.toNat by omega)]
        exact ⟨factor.count.toNat, by omega⟩
    · by_cases paired : factor.sides = 66 ∧ rules.whole66 = false
      · simp only [canSum_pair_iff paired]
        exact ⟨11 * factor.count, ⟨factor.count, factor.count, by omega⟩,
          factor.count, factor.count + 1, by omega⟩
      · have scaled : factor.count * 2 ≤ factor.count * factor.sides :=
          Int.mul_le_mul_of_nonneg_left dice.sides (by omega)
        simp only [dice.canSum_single_iff paired exploding, countNat]
        exact ⟨factor.count, by omega⟩
  obtain ⟨sum, canSum, canSumMore⟩ := two
  by_cases zero : factor.modifier.apply sum = 0
  · refine ⟨_, ⟨_, canSumMore, rfl⟩, ?_⟩
    rw [Modifier.apply_eq_add_shift] at zero ⊢
    omega
  · exact ⟨_, ⟨_, canSum, rfl⟩, zero⟩

end Factor.HasDice

/-- Values that the factors can come to are the values of one throw of all of them. -/
theorem exists_factorsSettled
    {values : List Int}
    (canCome : List.Forall₂ (Factor.CanCome rules) factors values) :
    ∃ faces, FactorsSettled rules factors faces values.prod := by
  induction canCome with
  | nil =>
      exact ⟨[], .done⟩
  | cons first rest inductionHypothesis =>
      obtain ⟨sum, ⟨faces, settled⟩, rfl⟩ := first
      obtain ⟨more, restSettled⟩ := inductionHypothesis
      rw [List.prod_cons]
      exact ⟨faces ++ more, .next settled restSettled⟩

/-- Without exploding dice, the ends of the factors are values that they can come to. -/
theorem canCome_ends
    {ends : List Int}
    (dice : ∀ factor ∈ factors, factor.HasDice)
    (noneExploding : ∀ factor ∈ factors, ¬ (rules.explode = true ∧ factor.sides = 6))
    (isEnds : List.Forall₂ (Factor.IsEnd rules) factors ends) :
    List.Forall₂ (Factor.CanCome rules) factors ends := by
  induction isEnds with
  | nil =>
      exact .nil
  | cons isEnd isEnds inductionHypothesis =>
      obtain ⟨firstDice, restDice⟩ := List.forall_mem_cons.mp dice
      obtain ⟨firstStays, restStay⟩ := List.forall_mem_cons.mp noneExploding
      exact .cons (firstDice.canCome_end firstStays isEnd) (inductionHypothesis restDice restStay)

/-- What lies between two numbers fits if both of them do, also when all are multiplied. -/
theorem fitsWord_between
    {scale low high : Int}
    (between : low ≤ value ∧ value ≤ high)
    (fitsLow : fitsWord (scale * low))
    (fitsHigh : fitsWord (scale * high)) :
    fitsWord (scale * value) := by
  unfold fitsWord at fitsLow fitsHigh ⊢
  rcases Int.le_total 0 scale with positive | negative
  · have aboveLow := Int.mul_le_mul_of_nonneg_left between.1 positive
    have belowHigh := Int.mul_le_mul_of_nonneg_left between.2 positive
    omega
  · have belowLow := Int.mul_le_mul_of_nonpos_left negative between.1
    have aboveHigh := Int.mul_le_mul_of_nonpos_left negative between.2
    omega

/-- Where the ends of the factors fit in every choice, so do all their products. -/
theorem FactorsSettled.fits
    (settled : FactorsSettled rules factors faces product)
    (dice : ∀ factor ∈ factors, factor.HasDice)
    (noneExploding : ∀ factor ∈ factors, ¬ (rules.explode = true ∧ factor.sides = 6))
    (scale : Int)
    (endsFit :
      ∀ ends, List.Forall₂ (Factor.IsEnd rules) factors ends → fitsWord (scale * ends.prod)) :
    fitsWord (scale * product) := by
  induction settled generalizing scale with
  | done =>
      exact endsFit [] .nil
  | @next factor factors faces more sum product settled rest inductionHypothesis =>
      obtain ⟨firstDice, restDice⟩ := List.forall_mem_cons.mp dice
      obtain ⟨firstStays, restStay⟩ := List.forall_mem_cons.mp noneExploding
      have between := firstDice.value_between firstStays ⟨sum, ⟨faces, settled⟩, rfl⟩
      rw [← Int.mul_assoc]
      -- With the other factors at their ends, the product is linear in this one.
      refine inductionHypothesis restDice restStay _ fun ends isEnds => ?_
      rw [Int.mul_right_comm]
      apply fitsWord_between between
      · rw [Int.mul_right_comm, Int.mul_assoc, ← List.prod_cons]
        exact endsFit _ (.cons (.inl rfl) isEnds)
      · rw [Int.mul_right_comm, Int.mul_assoc, ← List.prod_cons]
        exact endsFit _ (.cons (.inr rfl) isEnds)

theorem exists_ne_zero_product
    (rules : Rules)
    (dice : ∀ factor ∈ factors, factor.HasDice) :
    ∃ values, List.Forall₂ (Factor.CanCome rules) factors values ∧ values.prod ≠ 0 := by
  induction factors with
  | nil =>
      exact ⟨[], .nil, by decide⟩
  | cons factor factors inductionHypothesis =>
      obtain ⟨firstDice, restDice⟩ := List.forall_mem_cons.mp dice
      obtain ⟨value, first, notZero⟩ := firstDice.exists_ne_zero rules
      obtain ⟨values, rest, productNotZero⟩ := inductionHypothesis restDice
      refine ⟨value :: values, .cons first rest, ?_⟩
      rw [List.prod_cons]
      exact Int.mul_ne_zero notZero productNotZero

/-- With an exploding die among the factors their product is as large as one likes. -/
theorem exists_large_product
    (explode : rules.explode = true)
    (sixSided : ∃ factor ∈ factors, factor.sides = 6)
    (dice : ∀ factor ∈ factors, factor.HasDice)
    (bound : Nat) :
    ∃ values,
      List.Forall₂ (Factor.CanCome rules) factors values ∧ bound < values.prod.natAbs := by
  induction factors with
  | nil =>
      obtain ⟨_, member, -⟩ := sixSided
      cases member
  | cons factor factors inductionHypothesis =>
      obtain ⟨firstDice, restDice⟩ := List.forall_mem_cons.mp dice
      by_cases six : factor.sides = 6
      · obtain ⟨value, first, large⟩ := firstDice.exists_large ⟨explode, six⟩ bound
        obtain ⟨values, rest, notZero⟩ := exists_ne_zero_product rules restDice
        refine ⟨value :: values, .cons first rest, ?_⟩
        rw [List.prod_cons, Int.natAbs_mul]
        exact Nat.lt_of_lt_of_le large (Nat.le_mul_of_pos_right _ (Int.natAbs_pos.mpr notZero))
      · have restSix : ∃ factor ∈ factors, factor.sides = 6 := by
          simpa [six] using sixSided
        obtain ⟨value, first, notZero⟩ := firstDice.exists_ne_zero rules
        obtain ⟨values, rest, large⟩ := inductionHypothesis restSix restDice
        refine ⟨value :: values, .cons first rest, ?_⟩
        rw [List.prod_cons, Int.natAbs_mul]
        exact Nat.lt_of_lt_of_le large (Nat.le_mul_of_pos_left _ (Int.natAbs_pos.mpr notZero))

end

section

variable {rules : Rules} {code : DiceCode} {faces : List Int} {product : Int}

theorem DiceCode.noneExploding
    (noSixesExplode : ¬ code.SixesExplode rules) :
    ∀ factor ∈ code.factors, ¬ ((rules.forCode code).explode = true ∧ factor.sides = 6) :=
  fun factor member exploding => noSixesExplode ⟨exploding.1, factor, member, exploding.2⟩

/-- A code that cannot wrap has only products that fit. -/
theorem CodeSettled.fits
    (settled : CodeSettled rules code faces product)
    (dice : ∀ factor ∈ code.factors, factor.HasDice)
    (cannotWrap : ¬ code.CanWrap rules) :
    fitsWord product := by
  obtain ⟨noSixesExplode, endsFit⟩ := not_or.mp cannotWrap
  have fits := FactorsSettled.fits settled dice (DiceCode.noneExploding noSixesExplode) 1 (by
    intro ends isEnds
    rw [Int.one_mul]
    by_contra outside
    exact endsFit ⟨ends, isEnds, outside⟩)
  rwa [Int.one_mul] at fits

/-- A code that can wrap has a product that does not fit. -/
theorem DiceCode.CanWrap.exists_settled
    (canWrap : code.CanWrap rules)
    (dice : ∀ factor ∈ code.factors, factor.HasDice) :
    ∃ faces product, CodeSettled rules code faces product ∧ ¬ fitsWord product := by
  by_cases sixesExplode : code.SixesExplode rules
  · obtain ⟨values, canCome, large⟩ :=
      exists_large_product sixesExplode.1 sixesExplode.2 dice 32768
    obtain ⟨faces, settled⟩ := exists_factorsSettled canCome
    refine ⟨faces, _, settled, ?_⟩
    unfold fitsWord
    omega
  · obtain ⟨ends, isEnds, outside⟩ := canWrap.resolve_left sixesExplode
    have canCome := canCome_ends dice (DiceCode.noneExploding sixesExplode) isEnds
    obtain ⟨faces, settled⟩ := exists_factorsSettled canCome
    exact ⟨faces, _, settled, outside⟩

end

section

variable {σ : Type} {source : Source σ} {rules : Rules} {code : DiceCode} {state : σ}

theorem warned_iff :
    (source.evaluate rules code state).Warned ↔
      ∃ product,
        (source.throwCode rules code state).outcome = .ok product ∧ ¬ fitsWord product := by
  unfold Passage.Warned Source.evaluate
  rcases source.throwCode rules code state with ⟨fault | product, hand⟩
  · constructor
    · rintro ⟨_, _, ⟨⟩⟩
    · rintro ⟨_, ⟨⟩, _⟩
  · have entries :
        ∀ entry,
          entry ∈ wrapEntries product ↔
            ¬ fitsWord product ∧ entry = wrapWarning product (narrow product) := by
      intro entry
      rw [wrapEntries_eq]
      split <;> simp [*]
    simp only [entries, Except.ok.injEq, exists_eq_left']
    constructor
    · rintro ⟨_, _, outside, -⟩
      exact outside
    · intro outside
      exact ⟨product, narrow product, outside, rfl⟩

/-- Where no die explodes, a roll from a fair source has a result. -/
theorem Source.Fair.throws
    (fair : source.Fair state)
    (noSixesExplode : ¬ code.SixesExplode rules)
    (sides : ∀ factor ∈ code.factors, 0 < factor.sides ∧ Text.Writable factor.sides) :
    ∃ total, (source.evaluate rules code state).outcome = .ok total := by
  obtain ⟨Reached, reached, answers⟩ := fair
  have sixesEnd :
      ∀ factor ∈ code.factors,
        (rules.forCode code).position factor.sides = .exploding →
          source.SixesEnd Reached 0 :=
    fun factor member position =>
      absurd (exploding_of_position position) (DiceCode.noneExploding noSixesExplode factor member)
  exact answers.evaluate_total rules code sides sixesEnd reached

/-- A result is the exact product of the faces in a notebook, narrowed. -/
theorem evaluate_settled
    {total : Int}
    (rolled : (source.evaluate rules code state).outcome = .ok total) :
    ∃ product,
      CodeSettled rules code
          (source.recorded.evaluate rules code { inner := state }).left.values product ∧
        total = narrow product := by
  have noted : ({ inner := state } : Recorded σ).inner = state := rfl
  have alike := source.alike_recorded.evaluate noted rules code
  rw [← alike.outcome, Source.evaluate_outcome] at rolled
  rw [Source.evaluate_left]
  cases thrown : (source.recorded.throwCode rules code { inner := state }).outcome with
  | error fault =>
      rw [thrown] at rolled
      cases rolled
  | ok product =>
      rw [thrown] at rolled
      cases rolled
      obtain ⟨rolls, drawn, settled⟩ := throwCode_settled thrown
      obtain rfl : _ = rolls := drawn.recorded_toList
      exact ⟨product, settled, rfl⟩

end

/--
Rolling a code that is read from a text warns for some fair source if and only if the
code has an exploding die or ends with a product that does not fit. For every other
code a result is the exact product of the faces that were drawn, whatever the source
is, and from a fair source there is a result.
-/
theorem evaluate_warned_iff_canWrap
    {text : String}
    {code : DiceCode}
    (read : DiceCode.read? text = .ok code)
    (rules : Rules) :
    ((∃ (σ : Type) (source : Source σ) (state : σ),
        source.Fair state ∧ (source.evaluate rules code state).Warned) ↔
      code.CanWrap rules) ∧
      (¬ code.CanWrap rules →
        ∀ {σ : Type} (source : Source σ) (state : σ),
          let outcome := (source.evaluate rules code state).outcome
          let noted := (source.recorded.evaluate rules code { inner := state }).left
          (∀ total, outcome = .ok total → CodeSettled rules code noted.values total) ∧
            (source.Fair state → ∃ total, outcome = .ok total)) := by
  have wellFormed := (DiceCode.wellFormed_of_read? read).factors
  have dice : ∀ factor ∈ code.factors, factor.HasDice :=
    fun factor member =>
      ⟨(wellFormed factor member).count.1, (wellFormed factor member).sides.1,
        (wellFormed factor member).sides_writable⟩
  have someSides : ∀ factor ∈ code.factors, 0 < factor.sides :=
    fun factor member => (dice factor member).someSides
  have sides : ∀ factor ∈ code.factors, 0 < factor.sides ∧ Text.Writable factor.sides :=
    fun factor member => ⟨someSides factor member, (dice factor member).writable⟩
  refine ⟨⟨?_, ?_⟩, ?_⟩
  · rintro ⟨σ, source, state, -, warned⟩
    obtain ⟨product, thrown, outside⟩ := warned_iff.mp warned
    obtain ⟨rolls, -, settled⟩ := throwCode_settled thrown
    by_contra cannotWrap
    exact outside (settled.fits dice cannotWrap)
  · intro canWrap
    obtain ⟨faces, product, settled, outside⟩ := canWrap.exists_settled dice
    exact ⟨Well, Well.source, .generator (.loaded faces), generator_fair _,
      warned_iff.mpr ⟨product, throwCode_loaded someSides settled, outside⟩⟩
  · intro cannotWrap σ source state outcome noted
    constructor
    · intro total rolled
      obtain ⟨product, settled, rfl⟩ := evaluate_settled rolled
      rwa [narrow_eq_self_iff.mpr (settled.fits dice cannotWrap)]
    · intro fair
      exact fair.throws (fun sixesExplode => cannotWrap (.inl sixesExplode)) sides

/-- The code `200d200` can wrap, and `d6-3` cannot. -/
theorem evaluate_warned_iff_canWrap_largeAndSmall :
    let large : DiceCode := { factors := [{ count := 200, sides := 200 }] }
    let small : DiceCode :=
      { factors := [{ modifier := { operation := .subtract, operand := 3 } }] }
    DiceCode.read? "200d200" = .ok large ∧
      (∃ (σ : Type) (source : Source σ) (state : σ),
        source.Fair state ∧ (source.evaluate {} large state).Warned) ∧
      DiceCode.read? "d6-3" = .ok small ∧
      ¬ small.CanWrap {} ∧
      CodeSettled {} small [5] 2 ∧
      (∃ total, (Well.source.evaluate {} small (.generator (.loaded [5]))).outcome = .ok total) := by
  intro large small
  have readLarge : DiceCode.read? "200d200" = .ok large :=
    DiceCode.read?_of_factor rfl rfl
  have readSmall : DiceCode.read? "d6-3" = .ok small :=
    DiceCode.read?_of_factor rfl rfl
  have canWrap : large.CanWrap {} :=
    .inr ⟨[40000], .cons (.inr rfl) .nil, by decide⟩
  have cannotWrap : ¬ small.CanWrap {} := by
    rintro (⟨⟨⟩, -⟩ | ⟨ends, isEnds, outside⟩)
    cases isEnds with
    | cons isEnd rest =>
        cases rest
        rcases isEnd with rfl | rfl
        · exact outside (by decide)
        · exact outside (by decide)
  have warns := (evaluate_warned_iff_canWrap readLarge {}).1.mpr canWrap
  have exactly := (evaluate_warned_iff_canWrap readSmall {}).2 cannotWrap Well.source
    (.generator (.loaded [5]))
  have rolled : (Well.source.evaluate {} small (.generator (.loaded [5]))).outcome = .ok 2 := by
    rfl
  exact ⟨readLarge, warns, readSmall, cannotWrap, exactly.1 2 rolled,
    exactly.2 (generator_fair _)⟩

end Tabletop
