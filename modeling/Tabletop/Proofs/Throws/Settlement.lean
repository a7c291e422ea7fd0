import Mathlib.Algebra.Group.Nat.Defs
import Mathlib.Algebra.Ring.Int.Defs
import Tabletop.Dice.Throw

namespace Tabletop

/-!
# What settles a throw

The rules of a roll as relations on the faces that are drawn, without a source
and without an order of computation. A position is settled by a block of faces
and is worth a number; a factor is settled by the blocks of its positions, and a
code by those of its factors. Before it is settled it is open, and asks for one
more face of a die. Every script either has a part at its front that settles a
code, or breaks off at an open die: `code_decided`.
-/

/-- Faces that settle a position of so many sides, and what they are worth. -/
inductive PositionSettled
    (rules : Rules)
    (sides : Int) :
    List Int → Int → Prop where
  | pair
      {tens units : Int}
      (paired : sides = 66 ∧ rules.whole66 = false)
      (tensRange : 1 ≤ tens ∧ tens ≤ 6)
      (unitsRange : 1 ≤ units ∧ units ≤ 6) :
      PositionSettled rules sides [tens, units] (10 * tens + units)
  | chain
      {sixes : Nat}
      {last : Int}
      (exploding : rules.explode = true ∧ sides = 6)
      (lastRange : 1 ≤ last ∧ last ≤ 5) :
      PositionSettled rules sides
        (List.replicate sixes 6 ++ [last])
        (List.replicate sixes 6 ++ [last]).sum
  | single
      {face : Int}
      (notPaired : ¬ (sides = 66 ∧ rules.whole66 = false))
      (notExploding : ¬ (rules.explode = true ∧ sides = 6))
      (accepted : Accepted face sides) :
      PositionSettled rules sides [face] face

/-- Faces that leave a position open, and the sides of the die that it asks for next. -/
inductive PositionOpen
    (rules : Rules)
    (sides : Int) :
    List Int → Int → Prop where
  | tens
      (paired : sides = 66 ∧ rules.whole66 = false) :
      PositionOpen rules sides [] 6
  | units
      {tens : Int}
      (paired : sides = 66 ∧ rules.whole66 = false)
      (tensRange : 1 ≤ tens ∧ tens ≤ 6) :
      PositionOpen rules sides [tens] 6
  | chain
      {sixes : Nat}
      (exploding : rules.explode = true ∧ sides = 6) :
      PositionOpen rules sides (List.replicate sixes 6) 6
  | single
      (notPaired : ¬ (sides = 66 ∧ rules.whole66 = false))
      (notExploding : ¬ (rules.explode = true ∧ sides = 6)) :
      PositionOpen rules sides [] sides

/-- Faces that settle so many positions one after the other, and the sum of their worths. -/
inductive PositionsSettled
    (rules : Rules)
    (sides : Int) :
    Nat → List Int → Int → Prop where
  | done :
      PositionsSettled rules sides 0 [] 0
  | next
      {count : Nat}
      {block faces : List Int}
      {worth sum : Int}
      (settled : PositionSettled rules sides block worth)
      (rest : PositionsSettled rules sides count faces sum) :
      PositionsSettled rules sides (count + 1) (block ++ faces) (worth + sum)

/-- Faces that leave one of so many positions open. -/
inductive PositionsOpen
    (rules : Rules)
    (sides : Int) :
    Nat → List Int → Int → Prop where
  | here
      {count : Nat}
      {faces : List Int}
      {die : Int}
      (opened : PositionOpen rules sides faces die) :
      PositionsOpen rules sides (count + 1) faces die
  | later
      {count : Nat}
      {block faces : List Int}
      {worth die : Int}
      (settled : PositionSettled rules sides block worth)
      (rest : PositionsOpen rules sides count faces die) :
      PositionsOpen rules sides (count + 1) (block ++ faces) die

/-- Faces that settle factors one after the other, and the product of their modified sums. -/
inductive FactorsSettled
    (rules : Rules) :
    List Factor → List Int → Int → Prop where
  | done :
      FactorsSettled rules [] [] 1
  | next
      {factor : Factor}
      {factors : List Factor}
      {faces more : List Int}
      {sum product : Int}
      (settled : PositionsSettled rules factor.sides factor.count.toNat faces sum)
      (rest : FactorsSettled rules factors more product) :
      FactorsSettled rules (factor :: factors) (faces ++ more)
        (factor.modifier.apply sum * product)

/-- Faces that leave one of the factors open. -/
inductive FactorsOpen
    (rules : Rules) :
    List Factor → List Int → Int → Prop where
  | here
      {factor : Factor}
      {factors : List Factor}
      {faces : List Int}
      {die : Int}
      (opened : PositionsOpen rules factor.sides factor.count.toNat faces die) :
      FactorsOpen rules (factor :: factors) faces die
  | later
      {factor : Factor}
      {factors : List Factor}
      {faces more : List Int}
      {sum die : Int}
      (settled : PositionsSettled rules factor.sides factor.count.toNat faces sum)
      (rest : FactorsOpen rules factors more die) :
      FactorsOpen rules (factor :: factors) (faces ++ more) die

/-- Faces that settle a code, whose own `E` makes sixes explode as well, and its exact result. -/
def CodeSettled
    (rules : Rules)
    (code : DiceCode) :
    List Int → Int → Prop :=
  FactorsSettled (rules.forCode code) code.factors

/-- Faces that leave a code open, and the sides of the die that it asks for next. -/
def CodeOpen
    (rules : Rules)
    (code : DiceCode) :
    List Int → Int → Prop :=
  FactorsOpen (rules.forCode code) code.factors

/-- Whether a die may be asked for when a code is rolled: one of its own, or one of six sides. -/
def DiceCode.MayAsk
    (code : DiceCode)
    (die : Int) :
    Prop :=
  die = 6 ∨ ∃ factor ∈ code.factors, factor.sides = die

/-- What holds of six sides and of the sides of all factors holds of every die. -/
theorem DiceCode.MayAsk.of_sides
    {code : DiceCode}
    {Holds : Int → Prop}
    {die : Int}
    (mayAsk : code.MayAsk die)
    (six : Holds 6)
    (sides : ∀ factor ∈ code.factors, Holds factor.sides) :
    Holds die := by
  obtain rfl | ⟨factor, member, rfl⟩ := mayAsk
  · exact six
  · exact sides factor member

/-- The dice of a factor have its sides, or six. -/
theorem PositionsOpen.die_cases
    {rules : Rules}
    {sides die : Int}
    {count : Nat}
    {faces : List Int}
    (opened : PositionsOpen rules sides count faces die) :
    die = 6 ∨ die = sides := by
  induction opened with
  | later settled rest inductionHypothesis =>
      exact inductionHypothesis
  | here opened =>
      cases opened with
      | single => exact .inr rfl
      | _ => exact .inl rfl

theorem FactorsOpen.die_cases
    {rules : Rules}
    {factors : List Factor}
    {faces : List Int}
    {die : Int}
    (opened : FactorsOpen rules factors faces die) :
    die = 6 ∨ ∃ factor ∈ factors, factor.sides = die := by
  induction opened with
  | here opened =>
      exact opened.die_cases.imp_right fun same => ⟨_, .head _, same.symm⟩
  | later settled rest inductionHypothesis =>
      exact inductionHypothesis.imp_right fun ⟨factor, member, same⟩ =>
        ⟨factor, .tail _ member, same⟩

/-- The die that is open is one that the code may ask for. -/
theorem CodeOpen.mayAsk
    {rules : Rules}
    {code : DiceCode}
    {faces : List Int}
    {die : Int}
    (opened : CodeOpen rules code faces die) :
    code.MayAsk die :=
  FactorsOpen.die_cases opened

/-- How a script ends that is read by given rules: it settles them, or an open die breaks it off. -/
inductive Decided
    (Settled Open : List Int → Int → Prop)
    (script : List Int) :
    Prop where
  | settled
      {faces rest : List Int}
      {value : Int}
      (shape : script = faces ++ rest)
      (settled : Settled faces value)
  | rejected
      {faces rest : List Int}
      {face die : Int}
      (shape : script = faces ++ face :: rest)
      (opened : Open faces die)
      (notAccepted : ¬ Accepted face die)
  | exhausted
      {die : Int}
      (opened : Open script die)

namespace Decided

variable {Settled Open First FirstOpen Next NextOpen : List Int → Int → Prop}

/-- Where two parts are decided on every script, so are both one behind the other. -/
theorem sequence
    {script : List Int}
    (first : Decided First FirstOpen script)
    (next : ∀ script, Decided Next NextOpen script)
    (both :
      ∀ {faces more a b},
        First faces a → Next more b → ∃ value, Settled (faces ++ more) value)
    (openFirst :
      ∀ {faces die}, FirstOpen faces die → Open faces die)
    (openNext :
      ∀ {faces more a die},
        First faces a → NextOpen more die → Open (faces ++ more) die) :
    Decided Settled Open script := by
  cases first with
  | rejected shape opened notAccepted =>
      exact .rejected shape (openFirst opened) notAccepted
  | exhausted opened =>
      exact .exhausted (openFirst opened)
  | @settled faces rest value shape settled =>
      subst shape
      cases next rest with
      | @settled more behind _ restShape restSettled =>
          subst restShape
          obtain ⟨value, whole⟩ := both settled restSettled
          exact .settled (List.append_assoc faces more behind).symm whole
      | @rejected more behind face _ restShape opened notAccepted =>
          subst restShape
          exact .rejected (List.append_assoc faces more (face :: behind)).symm
            (openNext settled opened) notAccepted
      | exhausted opened =>
          exact .exhausted (openNext settled opened)

end Decided

section

variable (rules : Rules)

private theorem face_decided
    {Settled Open : List Int → Int → Prop}
    {die : Int}
    (opened : Open [] die)
    (settled : ∀ face, Accepted face die → ∃ value, Settled [face] value)
    (script : List Int) :
    Decided Settled Open script := by
  cases script with
  | nil =>
      exact .exhausted opened
  | cons face rest =>
      by_cases accepted : Accepted face die
      · obtain ⟨value, done⟩ := settled face accepted
        exact .settled (List.singleton_append).symm done
      · exact .rejected (List.nil_append _).symm opened accepted

/-- A script of sixes goes on to a last face, or breaks the chain off. -/
private theorem chain_decided
    {sides : Int}
    (exploding : rules.explode = true ∧ sides = 6)
    (script : List Int)
    (sixes : Nat) :
    ∀ faces,
      faces = List.replicate sixes 6 ++ script →
      Decided (PositionSettled rules sides) (PositionOpen rules sides) faces := by
  induction script generalizing sixes with
  | nil =>
      rintro faces rfl
      rw [List.append_nil]
      exact .exhausted (.chain exploding)
  | cons face rest inductionHypothesis =>
      rintro faces rfl
      by_cases six : face = 6
      · subst six
        apply inductionHypothesis (sixes + 1)
        rw [List.replicate_succ', List.append_assoc, List.singleton_append]
      · by_cases accepted : Accepted face 6
        · have inRange := accepted_six_iff.mp accepted
          have lastRange : 1 ≤ face ∧ face ≤ 5 := by
            omega
          have shape :
              List.replicate sixes 6 ++ face :: rest =
                (List.replicate sixes 6 ++ [face]) ++ rest := by
            simp
          exact .settled shape (.chain exploding lastRange)
        · exact .rejected rfl (.chain exploding) accepted

theorem position_decided
    (sides : Int)
    (script : List Int) :
    Decided (PositionSettled rules sides) (PositionOpen rules sides) script := by
  by_cases paired : sides = 66 ∧ rules.whole66 = false
  · cases script with
    | nil =>
        exact .exhausted (.tens paired)
    | cons tens rest =>
        by_cases tensAccepted : Accepted tens 6
        · have tensRange := accepted_six_iff.mp tensAccepted
          cases rest with
          | nil =>
              exact .exhausted (.units paired tensRange)
          | cons units rest =>
              by_cases unitsAccepted : Accepted units 6
              · have shape : tens :: units :: rest = [tens, units] ++ rest := rfl
                exact .settled shape
                  (.pair paired tensRange (accepted_six_iff.mp unitsAccepted))
              · have shape : tens :: units :: rest = [tens] ++ units :: rest := rfl
                exact .rejected shape (.units paired tensRange) unitsAccepted
        · exact .rejected (List.nil_append _).symm (.tens paired) tensAccepted
  · by_cases exploding : rules.explode = true ∧ sides = 6
    · exact chain_decided rules exploding script 0 script rfl
    · exact face_decided (.single paired exploding)
        (fun face accepted => ⟨face, .single paired exploding accepted⟩) script

theorem positions_decided
    (sides : Int)
    (count : Nat)
    (script : List Int) :
    Decided (PositionsSettled rules sides count) (PositionsOpen rules sides count)
      script := by
  induction count generalizing script with
  | zero =>
      exact .settled (List.nil_append _).symm .done
  | succ count inductionHypothesis =>
      exact (position_decided rules sides script).sequence inductionHypothesis
        (fun settled rest => ⟨_, .next settled rest⟩)
        .here .later

theorem factors_decided
    (factors : List Factor)
    (script : List Int) :
    Decided (FactorsSettled rules factors) (FactorsOpen rules factors) script := by
  induction factors generalizing script with
  | nil =>
      exact .settled (List.nil_append _).symm .done
  | cons factor factors inductionHypothesis =>
      exact (positions_decided rules factor.sides factor.count.toNat script).sequence
        inductionHypothesis
        (fun settled rest => ⟨_, .next settled rest⟩)
        .here .later

theorem code_decided
    (code : DiceCode)
    (script : List Int) :
    Decided (CodeSettled rules code) (CodeOpen rules code) script :=
  factors_decided (rules.forCode code) code.factors script

end

end Tabletop
