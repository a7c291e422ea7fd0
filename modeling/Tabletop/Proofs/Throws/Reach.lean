import Tabletop.Proofs.Throws.Answers
import Tabletop.Proofs.Throws.Modifiers

namespace Tabletop

/-!
# How far the rules reach

A rule makes a difference to a roll only through the factors that it is about: that
sixes explode, through six-sided dice; that a die of 66 sides is one die, through such
dice. A roll is seen as one turn for each factor (`Source.turns`), and two rolls whose
turns all come out the same are the same: `Source.traced_of_agreeOn`. Where sixes explode, a
turn comes out the same also if no six is drawn in it: `agreeOn_noSix`.
-/

/-- A factor that a roll has reached, and the faces that are accepted for its dice. -/
structure FactorTurn where
  factor : Factor
  faces : List Int
  deriving Repr, DecidableEq, Inhabited

/-- Whether dice of so many sides are thrown for one of the factors. -/
def ThrowsSides
    (factors : List Factor)
    (sides : Int) :
    Prop :=
  ∃ factor ∈ factors, 0 < factor.count ∧ factor.sides = sides

section

variable {σ τ α : Type}

/-- The same throw with some faces accepted ahead of it. -/
def Thrown.behind
    (ahead : Array Int)
    (thrown : Thrown σ α) :
    Thrown σ α :=
  { thrown with hand := { thrown.hand with faces := ahead ++ thrown.hand.faces } }

theorem Thrown.Alike.eq_behind
    {ahead : Array Int}
    {thrown other : Thrown σ α}
    (alike : Thrown.Alike Eq ahead thrown other) :
    thrown = other.behind ahead := by
  rcases thrown with ⟨outcome, left, faces⟩
  rcases other with ⟨otherOutcome, otherLeft, otherFaces⟩
  rcases alike with ⟨⟨⟩, ⟨⟩, sameFaces⟩
  cases sameFaces
  rfl

namespace Source

variable (source : Source σ) (rules : Rules)

/-- The turn of a factor that a roll has reached in some state. -/
def turn
    (factor : Factor)
    (state : σ) :
    FactorTurn where
  factor := factor
  faces := (source.throwFactor rules factor { source := state }).hand.faces.toList

/-- The turns of the factors, up to the first one for which the source fails. -/
def turns : List Factor → σ → List FactorTurn
  | [], _ =>
      []
  | factor :: rest, state =>
      source.turn rules factor state ::
        match source.throwFactor rules factor { source := state } with
        | ⟨.ok _, hand⟩ => turns rest hand.source
        | ⟨.error _, _⟩ => []

theorem throwFactor_eq_behind
    (factor : Factor)
    (hand : Hand σ) :
    source.throwFactor rules factor hand =
      (source.throwFactor rules factor { source := hand.source }).behind hand.faces := by
  have hands : Hand.Alike Eq hand.faces hand { source := hand.source } :=
    ⟨rfl, by simp⟩
  exact (source.alike_self.throwFactor hands rules factor).eq_behind

variable {source rules}

/-- Turns are about the factors of the roll. -/
theorem factor_mem_of_turns
    {factors : List Factor}
    {state : σ}
    {turn : FactorTurn}
    (member : turn ∈ source.turns rules factors state) :
    turn.factor ∈ factors := by
  induction factors generalizing state with
  | nil =>
      cases member
  | cons factor factors inductionHypothesis =>
      rw [turns, List.mem_cons] at member
      rcases member with rfl | later
      · exact .head factors
      · split at later
        · exact .tail factor (inductionHypothesis later)
        · cases later

variable (source rules)

/-- The faces of the turns, one turn after the other, are those of the whole throw. -/
theorem throwProduct_faces
    (factors : List Factor)
    (product : Int)
    (hand : Hand σ) :
    (source.throwProduct rules factors product hand).hand.faces.toList =
      hand.faces.toList ++ (source.turns rules factors hand.source).flatMap FactorTurn.faces := by
  induction factors generalizing product hand with
  | nil =>
      simp [throwProduct, turns]
  | cons factor factors inductionHypothesis =>
      rw [throwProduct, turns, turn, throwFactor_eq_behind]
      rcases source.throwFactor rules factor { source := hand.source } with ⟨fault | value, next⟩
      · simp [Thrown.behind]
      · simp [Thrown.behind, inductionHypothesis]

/-- Sources that cannot be told apart have the same turns. -/
theorem Alike.turns
    {Related : σ → τ → Prop}
    {source : Source σ}
    {other : Source τ}
    (alike : source.Alike other Related)
    (rules : Rules)
    (factors : List Factor)
    {s : σ}
    {t : τ}
    (related : Related s t) :
    source.turns rules factors s = other.turns rules factors t := by
  induction factors generalizing s t with
  | nil =>
      rfl
  | cons factor factors inductionHypothesis =>
      have hands : Hand.Alike Related #[] { source := s } { source := t } :=
        ⟨related, rfl⟩
      have thrown := alike.throwFactor hands rules factor
      rw [Source.turns, Source.turns, turn, turn]
      revert thrown
      rcases source.throwFactor rules factor { source := s } with ⟨outcome, left, faces⟩
      rcases other.throwFactor rules factor { source := t } with ⟨otherOutcome, otherLeft, otherFaces⟩
      rintro ⟨⟨⟩, leftRelated, sameFaces⟩
      rw [Array.empty_append] at sameFaces
      cases sameFaces
      cases outcome with
      | error fault =>
          rfl
      | ok value =>
          simp only [inductionHypothesis leftRelated]

end Source

end

/--
Whether a turn of a certain kind comes out the same under other rules, from whatever
source and in whatever state.
-/
def Rules.AgreeOn
    (rules otherRules : Rules)
    (Kind : FactorTurn → Prop) :
    Prop :=
  ∀ (σ : Type) (source : Source σ) (factor : Factor) (state : σ),
    Kind (source.turn rules factor state) →
      source.throwFactor rules factor { source := state } =
        source.throwFactor otherRules factor { source := state }

namespace Source

section

variable {σ : Type} {source : Source σ} {rules otherRules : Rules} {Kind : FactorTurn → Prop}
variable {code other : DiceCode}

variable (source) in
/-- A roll of a code with its trace. -/
def traced
    (rules : Rules)
    (code : DiceCode)
    (state : σ) :
    Passage σ Int × RollTrace σ :=
  (source.evaluate rules code state, source.rollTrace rules code state)

/-- Where all turns come out the same, so does the whole throw. -/
theorem throwProduct_of_agreeOn
    (agree : rules.AgreeOn otherRules Kind)
    (factors : List Factor)
    (product : Int)
    (hand : Hand σ)
    (kinds : ∀ turn ∈ source.turns rules factors hand.source, Kind turn) :
    source.throwProduct rules factors product hand =
      source.throwProduct otherRules factors product hand := by
  induction factors generalizing product hand with
  | nil =>
      rfl
  | cons factor factors inductionHypothesis =>
      rw [turns, List.forall_mem_cons] at kinds
      obtain ⟨first, later⟩ := kinds
      have same := agree σ source factor hand.source first
      rw [throwProduct, throwProduct, source.throwFactor_eq_behind rules factor hand,
        source.throwFactor_eq_behind otherRules factor hand, ← same]
      revert later
      rcases source.throwFactor rules factor { source := hand.source } with ⟨fault | value, next⟩
      · exact fun _ => rfl
      · intro later
        exact inductionHypothesis (product * value) _ later

variable (source) in
theorem evaluate_of_agreeOn
    (agree : (rules.forCode code).AgreeOn (otherRules.forCode other) Kind)
    (factors : other.factors = code.factors)
    (state : σ)
    (kinds : ∀ turn ∈ source.turns (rules.forCode code) code.factors state, Kind turn) :
    source.evaluate rules code state = source.evaluate otherRules other state := by
  have same := throwProduct_of_agreeOn agree code.factors 1 { source := state } kinds
  unfold evaluate throwCode
  rw [factors, same]

/-- Where all turns of a roll come out the same, so does the roll, and it leaves the same trace. -/
theorem traced_of_agreeOn
    (rules otherRules : Rules)
    (code : DiceCode)
    (otherE : Bool)
    {state : σ}
    (agree :
      (rules.forCode code).AgreeOn (otherRules.forCode { code with explode := otherE }) Kind)
    (kinds : ∀ turn ∈ source.turns (rules.forCode code) code.factors state, Kind turn) :
    source.traced rules code state =
      source.traced otherRules { code with explode := otherE } state := by
  have watchedTurns := source.alike_watched.turns (rules.forCode code) code.factors
    (show ({ inner := state } : Watched σ).inner = state from rfl)
  have recordedTurns := source.alike_recorded.turns (rules.forCode code) code.factors
    (show ({ inner := state } : Recorded σ).inner = state from rfl)
  have rolled := source.evaluate_of_agreeOn agree rfl state kinds
  have watched := source.watched.evaluate_of_agreeOn agree rfl _ (watchedTurns.symm ▸ kinds)
  have recorded := source.recorded.evaluate_of_agreeOn agree rfl _ (recordedTurns.symm ▸ kinds)
  unfold traced rollTrace diceAsked
  rw [rolled, watched, recorded]

end

end Source

section

variable {rules otherRules : Rules}

/-- Rules agree on the factors whose dice they throw alike, and on those without dice. -/
theorem agreeOn_of_position
    {sides : Int}
    (alike : ∀ others, others ≠ sides → rules.position others = otherRules.position others) :
    rules.AgreeOn otherRules fun turn =>
      ¬ (0 < turn.factor.count ∧ turn.factor.sides = sides) := by
  intro σ source factor state apart
  change ¬ (0 < factor.count ∧ factor.sides = sides) at apart
  unfold Source.throwFactor
  by_cases someDice : 0 < factor.count
  · rw [alike factor.sides fun same => apart ⟨someDice, same⟩]
  · rw [show factor.count.toNat = 0 by omega]
    rfl

end

/-- All dice but six-sided ones are thrown alike whether sixes explode or not. -/
theorem position_explode
    {sides : Int}
    (other : sides ≠ 6)
    (explode otherExplode whole66 : Bool) :
    Rules.position { explode := explode, whole66 := whole66 } sides =
      Rules.position { explode := otherExplode, whole66 := whole66 } sides := by
  simp [Rules.position, explodingSides, other]

/-- All dice but those of 66 sides are thrown alike whether such a die is one die or not. -/
theorem position_whole66
    {sides : Int}
    (other : sides ≠ 66)
    (explode whole66 otherWhole66 : Bool) :
    Rules.position { explode := explode, whole66 := whole66 } sides =
      Rules.position { explode := explode, whole66 := otherWhole66 } sides := by
  simp [Rules.position, pairedSides, other]

namespace Source

variable {σ : Type} (source : Source σ)

/-- The faces accepted before some dice are thrown are accepted afterwards. -/
theorem mem_faces_throwSum
    {hand : Hand σ}
    {face : Int}
    (accepted : face ∈ hand.faces)
    (position : Position)
    (count : Nat)
    (total : Int) :
    face ∈ (source.throwSum position count total hand).hand.faces := by
  have hands : Hand.Alike Eq hand.faces hand { source := hand.source } :=
    ⟨rfl, by simp⟩
  rw [(source.alike_self.throwSum hands position count total).hand.faces]
  exact Array.mem_append_left _ accepted

theorem mem_faces_face
    {sides face : Int}
    {hand next : Hand σ}
    (drawn : source.face sides hand = ⟨.ok face, next⟩) :
    face ∈ next.faces := by
  have ends := face_ends source sides hand
  rw [drawn] at ends
  cases ends with
  | settled _ settled =>
      rw [settled.1]
      simp

/-- A chain that does not begin with a six is a single draw. -/
theorem throw_exploding_of_notSix
    {hand : Hand σ}
    (notSix : ∀ next, source.face 6 hand ≠ ⟨.ok 6, next⟩) :
    source.throw .exploding hand = source.throw (.single 6) hand := by
  have chain :
      source.throw .exploding hand =
        (source.face 6 hand).andThen fun face next =>
          if face = 6 then source.chain (source.streak hand.source) (0 + face) next
          else ⟨.ok (0 + face), next⟩ :=
    rfl
  have single : source.throw (.single 6) hand = source.face 6 hand :=
    rfl
  rw [chain, single]
  revert notSix
  rcases source.face 6 hand with ⟨fault | face, next⟩
  · exact fun _ => rfl
  · intro notSix
    have other : face ≠ 6 := by
      rintro rfl
      exact notSix next rfl
    rw [Thrown.andThen_ok, if_neg other, Int.zero_add]

/-- Six-sided dice that show no six are thrown alike whether sixes explode or not. -/
theorem throwSum_exploding_of_noSix
    (count : Nat)
    (total : Int)
    (hand : Hand σ)
    (noSix : 6 ∉ (source.throwSum (.single 6) count total hand).hand.faces) :
    source.throwSum .exploding count total hand = source.throwSum (.single 6) count total hand := by
  induction count generalizing total hand with
  | zero =>
      rfl
  | succ count inductionHypothesis =>
      have single : source.throw (.single 6) hand = source.face 6 hand :=
        rfl
      have notSix : ∀ next, source.face 6 hand ≠ ⟨.ok 6, next⟩ := by
        intro next drawn
        rw [Source.throwSum, single, drawn] at noSix
        exact noSix (source.mem_faces_throwSum (source.mem_faces_face drawn) _ _ _)
      rw [Source.throwSum, single] at noSix
      rw [Source.throwSum, Source.throwSum, source.throw_exploding_of_notSix notSix, single]
      revert noSix
      rcases source.face 6 hand with ⟨fault | face, next⟩
      · exact fun _ => rfl
      · exact inductionHypothesis (total + face) next

end Source

/-- A turn in which no six is drawn for six-sided dice comes out the same where sixes explode. -/
theorem agreeOn_noSix (explode whole66 : Bool) :
    Rules.AgreeOn { whole66 := whole66 } { explode := explode, whole66 := whole66 } fun turn =>
      turn.factor.sides = 6 → 6 ∉ turn.faces := by
  intro σ source factor state noSix
  unfold Source.throwFactor
  by_cases six : factor.sides = 6
  · cases explode with
    | false =>
        rfl
    | true =>
        have plain : Rules.position { whole66 := whole66 } 6 = .single 6 :=
          position_single (by simp) (by simp)
        have exploding : Rules.position { explode := true, whole66 := whole66 } 6 = .exploding :=
          position_exploding ⟨rfl, rfl⟩
        have noneDrawn := noSix six
        simp only [Source.turn, Source.throwFactor, six, plain, Thrown.map_hand,
          Array.mem_toList_iff] at noneDrawn
        rw [six, plain, exploding, source.throwSum_exploding_of_noSix _ _ _ noneDrawn]
  · rw [position_explode six false explode whole66]

/--
The rules act where they may and nowhere else. Whether sixes explode, by the rules or by the
`E` of a code, makes no difference to a roll and its trace if no six-sided dice are thrown,
nor if no six is drawn for one where sixes do not explode; the dice of a pair do not count,
and neither does a whole die of 66 sides. Whether such a die is whole makes no difference
if none is thrown.
-/
theorem traced_outOfReach
    {σ : Type}
    (source : Source σ)
    (factors : List Factor)
    (state : σ) :
    let roll (explode ownE whole66 : Bool) :=
      source.traced { explode := explode, whole66 := whole66 }
        { factors := factors, explode := ownE } state
    (¬ ThrowsSides factors 6 →
        ∀ explode ownE otherExplode otherE whole66,
          roll explode ownE whole66 = roll otherExplode otherE whole66) ∧
      (∀ whole66,
        let plain := source.turns { whole66 := whole66 } factors state
        (roll false false whole66).1.remarks = (plain.flatMap FactorTurn.faces).map Remark.face ∧
          ((∀ turn ∈ plain, turn.factor.sides = 6 → 6 ∉ turn.faces) →
            ∀ explode ownE, roll explode ownE whole66 = roll false false whole66)) ∧
      (¬ ThrowsSides factors 66 →
        ∀ explode ownE whole66 otherWhole66,
          roll explode ownE whole66 = roll explode ownE otherWhole66) := by
  have apart
      {sides : Int}
      (none : ¬ ThrowsSides factors sides)
      (rules : Rules) :
      ∀ turn ∈ source.turns rules factors state,
        ¬ (0 < turn.factor.count ∧ turn.factor.sides = sides) :=
    fun turn member thrown => none ⟨turn.factor, Source.factor_mem_of_turns member, thrown⟩
  intro roll
  refine ⟨?_, ?_, ?_⟩
  · intro noSixes explode ownE otherExplode otherE whole66
    have agree := agreeOn_of_position fun sides other =>
      position_explode other (explode || ownE) (otherExplode || otherE) whole66
    exact source.traced_of_agreeOn ⟨explode, whole66⟩ ⟨otherExplode, whole66⟩ ⟨factors, ownE⟩ otherE
      agree (apart noSixes _)
  · intro whole66 plain
    constructor
    · have faces := source.throwProduct_faces { whole66 := whole66 } factors 1 { source := state }
      exact (source.evaluate_remarks _ _ _).trans (congrArg (List.map Remark.face) faces)
    · intro noSix explode ownE
      have agree := agreeOn_noSix (explode || ownE) whole66
      exact (source.traced_of_agreeOn ⟨false, whole66⟩ ⟨explode, whole66⟩ ⟨factors, false⟩ ownE
        agree noSix).symm
  · intro no66 explode ownE whole66 otherWhole66
    have agree := agreeOn_of_position fun sides other =>
      position_whole66 other (explode || ownE) whole66 otherWhole66
    exact source.traced_of_agreeOn ⟨explode, whole66⟩ ⟨explode, otherWhole66⟩ ⟨factors, ownE⟩ ownE
      agree (apart no66 _)

/-- The sixes of a pair do not count, and a pair alone or a six-sided die alone minds one rule only. -/
theorem traced_outOfReach_pairOfSixes :
    let both : List Factor := [{ count := 2 }, { sides := 66 }]
    let pair : List Factor := [{ sides := 66 }]
    let script := Well.script [3, 5, 6, 6] 0
    (∀ turn ∈ Well.source.turns {} both script, turn.factor.sides = 6 → 6 ∉ turn.faces) ∧
      Well.source.traced { explode := true } { factors := both } script =
        Well.source.traced {} { factors := both } script ∧
      (Well.source.traced {} { factors := both } script).1.outcome = .ok 528 ∧
      ¬ ThrowsSides pair 6 ∧
      Well.source.traced { explode := true } { factors := pair } (.fixed 6) =
        Well.source.traced {} { factors := pair, explode := true } (.fixed 6) ∧
      ¬ ThrowsSides [{}] 66 ∧
      Well.source.traced { whole66 := true } { factors := [{}], explode := true } script =
        Well.source.traced {} { factors := [{}], explode := true } script := by
  intro both pair script
  have turns :
      Well.source.turns {} both script =
        [⟨{ count := 2 }, [3, 5]⟩, ⟨{ sides := 66 }, [6, 6]⟩] := by
    rfl
  have noSix : ∀ turn ∈ Well.source.turns {} both script, turn.factor.sides = 6 → 6 ∉ turn.faces := by
    rw [turns]
    decide
  have noSixSided : ¬ ThrowsSides pair 6 := by
    simp [ThrowsSides, pair]
  have none66 : ¬ ThrowsSides [{}] 66 := by
    simp [ThrowsSides]
  obtain ⟨-, plain, -⟩ := traced_outOfReach Well.source both script
  obtain ⟨explosions, -, -⟩ := traced_outOfReach Well.source pair (.fixed 6)
  obtain ⟨-, -, whole⟩ := traced_outOfReach Well.source [{}] script
  exact ⟨noSix, (plain false).2 noSix true false, rfl, noSixSided,
    explosions noSixSided true false false true false, none66, whole none66 false true true false⟩

end Tabletop
