import Mathlib.Algebra.Ring.Int.Defs
import Tabletop.Proofs.Grammar.Joined
import Tabletop.Proofs.Throws.Alike
import Tabletop.Source.Well

namespace Tabletop

/-!
# Rolling one text after the other

Rolling two texts that are joined by an `x` comes to the same as rolling the
first and then the second from the same source, where the `E` of the second
counts for both. The result is the signed 16-bit number that agrees with the
product of the two results modulo 65536 (`MultipliedOutcome`); if one of the texts
fails, so does the whole, in the same way and with the same draws.
-/

namespace Source

variable {σ : Type} (source : Source σ) (rules : Rules)

/-- Throws the factors from left to right and lists what each of them comes to. -/
def throwFactors : List Factor → Hand σ → Thrown σ (List Int)
  | [], hand =>
      ⟨.ok [], hand⟩
  | factor :: rest, hand =>
      (source.throwFactor rules factor hand).andThen fun value hand =>
        (throwFactors rest hand).map (value :: ·)

/-- Throwing factors multiplies the product so far by what each of them comes to. -/
theorem throwProduct_eq_throwFactors
    (factors : List Factor)
    (product : Int)
    (hand : Hand σ) :
    source.throwProduct rules factors product hand =
      (source.throwFactors rules factors hand).map fun values => product * values.prod := by
  induction factors generalizing product hand with
  | nil =>
      simp [throwProduct, throwFactors, Thrown.map]
  | cons factor factors inductionHypothesis =>
      unfold throwProduct throwFactors
      rcases source.throwFactor rules factor hand with ⟨fault | value, hand⟩
      · rfl
      · rw [Thrown.andThen_ok, Thrown.andThen_ok, inductionHypothesis]
        rcases source.throwFactors rules factors hand with ⟨fault | values, hand⟩
        · rfl
        · simp [Thrown.map, Int.mul_assoc]

/-- Throwing factors multiplies the product so far by the product of their own. -/
theorem throwProduct_eq_map
    (factors : List Factor)
    (product : Int)
    (hand : Hand σ) :
    source.throwProduct rules factors product hand =
      (source.throwProduct rules factors 1 hand).map (product * ·) := by
  rw [throwProduct_eq_throwFactors, throwProduct_eq_throwFactors]
  rcases source.throwFactors rules factors hand with ⟨fault | values, hand⟩
  · rfl
  · simp [Thrown.map]

theorem throwProduct_append
    (factors more : List Factor)
    (product : Int)
    (hand : Hand σ) :
    source.throwProduct rules (factors ++ more) product hand =
      (source.throwProduct rules factors product hand).andThen
        (source.throwProduct rules more) := by
  induction factors generalizing product hand with
  | nil =>
      rfl
  | cons factor factors inductionHypothesis =>
      rw [List.cons_append]
      unfold throwProduct
      rw [Thrown.andThen_assoc]
      simp only [inductionHypothesis]

/-- A source cannot be told from itself. -/
theorem alike_self : source.Alike source Eq where
  answer _ _ _ same := by
    rw [same]
  left _ _ _ same := by
    rw [same]
  streak same := by
    rw [same]

/-- Faces that were accepted before make no difference to what is thrown. -/
theorem throwProduct_alike
    (factors : List Factor)
    (product : Int)
    (hand : Hand σ) :
    Thrown.Alike Eq hand.faces
      (source.throwProduct rules factors product hand)
      (source.throwProduct rules factors product { source := hand.source }) := by
  have hands : Hand.Alike Eq hand.faces hand { source := hand.source } :=
    ⟨rfl, by simp⟩
  exact source.alike_self.throwProduct hands rules factors product

section

variable {source rules}
variable {first second : DiceCode}

theorem throwCode_joined
    (noE : first.explode = false)
    (state : σ) :
    source.throwCode rules
        { factors := first.factors ++ second.factors, explode := second.explode } state =
      (source.throwCode (rules.forCode second) first state).andThen
        (source.throwProduct (rules.forCode second) second.factors) := by
  have sameRules : (rules.forCode second).forCode first = rules.forCode second := by
    simp [Rules.forCode, noE]
  unfold throwCode
  rw [sameRules]
  exact source.throwProduct_append _ _ _ _ _

/-- Behind a product and some faces, a code is thrown as it is on its own. -/
theorem throwProduct_code
    (product : Int)
    (hand : Hand σ) :
    let thrown := source.throwProduct (rules.forCode second) second.factors product hand
    let alone := source.throwCode rules second hand.source
    thrown.outcome = alone.outcome.map (product * ·) ∧ thrown.hand.source = alone.hand.source := by
  intro thrown alone
  have alike := source.throwProduct_alike (rules.forCode second) second.factors product hand
  rw [source.throwProduct_eq_map _ _ product { source := hand.source }] at alike
  have outcome := alike.outcome
  have left := alike.hand.source
  rw [Thrown.map_outcome] at outcome
  rw [Thrown.map_hand] at left
  exact ⟨outcome, left⟩

end

/-- Rolls a text and then another from the same source: both results, or the first failure. -/
def rollInTurn
    (rulesFirst rulesNext : Rules)
    (text other : String)
    (state : σ) :
    Except Failure (Int × Int) × σ :=
  let first := source.rollText rulesFirst text state
  match first.outcome with
  | .error failure =>
      (.error failure, first.left)
  | .ok a =>
      let next := source.rollText rulesNext other first.left
      (next.outcome.map fun b => (a, b), next.left)

/--
What rolling as one text comes to, given what rolling in turn came to: the same
failure, or the 16-bit number that agrees with the product of the results.
-/
inductive MultipliedOutcome : Except Failure (Int × Int) → Except Failure Int → Prop where
  | failed {failure : Failure} :
      MultipliedOutcome (.error failure) (.error failure)
  | rolled
      {a b result : Int}
      (lowest : -32768 ≤ result)
      (highest : result ≤ 32767)
      (congruent : result % 65536 = a * b % 65536) :
      MultipliedOutcome (.ok (a, b)) (.ok result)

theorem MultipliedOutcome.of_narrow (a b : Int) :
    MultipliedOutcome (.ok (a, b)) (.ok (narrow (a * b))) :=
  .rolled (narrow_fits _).1 (narrow_fits _).2 Int.bmod_emod

variable {source rules}
variable {first second : DiceCode} {text other : String}

theorem rollText_append_x
    (read : DiceCode.read? text = .ok first)
    (noE : text.toList.getLast? ≠ some 'E')
    (noBlankBefore : ∀ c ∈ text.toList.getLast?, Text.isBlank c = false)
    (readOther : DiceCode.read? other = .ok second)
    (noBlankBehind : ∀ c ∈ other.toList.head?, Text.isBlank c = false)
    (state : σ) :
    let joined := source.rollText rules (text ++ "x" ++ other) state
    let inTurn := source.rollInTurn (rules.forCode second) rules text other state
    MultipliedOutcome inTurn.1 joined.outcome ∧ joined.left = inTurn.2 := by
  have readJoined := DiceCode.read?_joined read noE noBlankBefore readOther noBlankBehind
  have firstNoE := DiceCode.explode_eq_false read noE noBlankBefore
  intro joined inTurn
  unfold joined inTurn rollInTurn rollText
  rw [readJoined, read, readOther]
  simp only [Passage.afterEntry, evaluate_outcome, evaluate_left]
  rw [source.throwCode_joined firstNoE state]
  rcases source.throwCode (rules.forCode second) first state with ⟨fault | product, hand⟩
  · exact ⟨.failed, rfl⟩
  · obtain ⟨outcome, left⟩ := source.throwProduct_code product hand
    rw [Thrown.andThen_ok, outcome, left]
    rcases source.throwCode rules second hand.source with ⟨fault | worth, hand⟩
    · exact ⟨.failed, rfl⟩
    · refine ⟨?_, rfl⟩
      change MultipliedOutcome (.ok (narrow product, narrow worth)) (.ok (narrow (product * worth)))
      rw [← narrow_mul product worth]
      exact .of_narrow _ _

/--
Two texts joined by an `x` are rolled in turn, and the `E` of the second counts
for the first as well. The first failure is that of the whole; if there is none,
the result is the signed 16-bit number that agrees with the product of both
results modulo 65536. The state that is left is the same in any case, and the
same dice are asked for in the same order.
-/
theorem rollText_joined
    (read : DiceCode.read? text = .ok first)
    (noE : text.toList.getLast? ≠ some 'E')
    (noBlankBefore : ∀ c ∈ text.toList.getLast?, Text.isBlank c = false)
    (readOther : DiceCode.read? other = .ok second)
    (noBlankBehind : ∀ c ∈ other.toList.head?, Text.isBlank c = false)
    (source : Source σ)
    (rules : Rules)
    (state : σ) :
    let rulesFirst : Rules := { rules with explode := rules.explode || second.explode }
    let joined := source.rollText rules (text ++ "x" ++ other) state
    let inTurn := source.rollInTurn rulesFirst rules text other state
    let watched := source.watched.rollText rules (text ++ "x" ++ other) { inner := state }
    let watchedInTurn := source.watched.rollInTurn rulesFirst rules text other { inner := state }
    (MultipliedOutcome inTurn.1 joined.outcome ∧ joined.left = inTurn.2) ∧
      (MultipliedOutcome watchedInTurn.1 watched.outcome ∧ watched.left = watchedInTurn.2) := by
  intro rulesFirst joined inTurn watched watchedInTurn
  constructor
  · exact rollText_append_x read noE noBlankBefore readOther noBlankBehind state
  · exact rollText_append_x read noE noBlankBefore readOther noBlankBehind _

/-- A result of 7395 and then one of 11: their product of 81345 is given as 15809. -/
theorem rollText_joined_exploding :
    let joined :=
      Well.source.watched.rollText {} (" d6xd255" ++ "x" ++ "d6E")
        { inner := .script [6, 6, 6, 6, 5, 255, 6, 5, 2] 0 }
    joined.outcome = .ok 15809 ∧
      joined.left = { inner := .script [2] 8, asked := [6, 6, 6, 6, 6, 255, 6, 6] } := by
  have d6 : readFactor "d6xd255".toList = .ok ({}, 'x' :: "d255".toList) := by
    rfl
  have d255 : readFactor "d255".toList = .ok ({ sides := 255 }, []) := by
    rfl
  have d6E : readFactor "d6E".toList = .ok ({}, ['E']) := by
    rfl
  have read : DiceCode.read? " d6xd255" = .ok { factors := [{}, { sides := 255 }] } := by
    unfold DiceCode.read?
    rw [show Text.trimChars " d6xd255".toList = "d6xd255".toList from rfl, readCode_ok_iff,
      readFactors_of_more d6, readFactors_of_last d255 nofun]
    rfl
  have readOther : DiceCode.read? "d6E" = .ok { factors := [{}], explode := true } :=
    DiceCode.read?_of_factor rfl d6E
  have noBlankBefore : ∀ c ∈ " d6xd255".toList.getLast?, Text.isBlank c = false := by
    rintro c ⟨⟩
    rfl
  have noBlankBehind : ∀ c ∈ "d6E".toList.head?, Text.isBlank c = false := by
    rintro c ⟨⟩
    rfl
  let script : Watched Well := { inner := .script [6, 6, 6, 6, 5, 255, 6, 5, 2] 0 }
  have inTurn :
      Well.source.watched.rollInTurn { explode := true } {} " d6xd255" "d6E" script =
        (.ok (7395, 11), { inner := .script [2] 8, asked := [6, 6, 6, 6, 6, 255, 6, 6] }) := by
    unfold rollInTurn rollText
    rw [read, readOther]
    rfl
  obtain ⟨-, multiplied, left⟩ :=
    rollText_joined read (by decide) noBlankBefore readOther noBlankBehind Well.source {}
      script.inner
  intro joined
  change MultipliedOutcome (rollInTurn _ { explode := true } {} " d6xd255" "d6E" script).1
    joined.outcome at multiplied
  change joined.left = (rollInTurn _ { explode := true } {} " d6xd255" "d6E" script).2 at left
  rw [inTurn] at multiplied left
  refine ⟨?_, left⟩
  generalize joined.outcome = outcome at multiplied ⊢
  cases multiplied with
  | @rolled _ _ result lowest highest congruent =>
      have result_eq : result = 15809 := by
        omega
      rw [result_eq]

end Source

end Tabletop
