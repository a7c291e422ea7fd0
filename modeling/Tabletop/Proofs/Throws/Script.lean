import Tabletop.Proofs.Throws.Settlement
import Tabletop.Roll.Evaluate
import Tabletop.Source.Well

namespace Tabletop

/-!
# Rolling from a script

A throw `Gives` a value on some faces if it takes exactly those faces off every
script that begins with them, and `Asks` for a die behind some faces if it fails
there when the script goes on with a face that is not accepted, or ends.
Both pass through `andThen`, so the faces that settle a code are the ones that
rolling it takes off a script, and a roll fails where they are left open.
-/

/-- A hand that draws from a script. -/
def scriptHand
    (left : List Int)
    (given : Nat)
    (accepted : Array Int) :
    Hand Well where
  source := .script left given
  faces := accepted

/-- A throw takes the faces off the script, whatever follows them, and comes to the value. -/
def Gives
    (throw : Hand Well → Thrown Well Int)
    (faces : List Int)
    (value : Int) :
    Prop :=
  ∀ rest given accepted,
    throw (scriptHand (faces ++ rest) given accepted) =
      ⟨.ok value, scriptHand rest (given + faces.length) (accepted ++ faces.toArray)⟩

/-- Behind the faces a throw draws for a die, and fails without a face that is accepted. -/
structure Asks
    (throw : Hand Well → Thrown Well Int)
    (faces : List Int)
    (die : Int) :
    Prop where
  rejected :
    ∀ face rest given accepted,
      ¬ Accepted face die →
      throw (scriptHand (faces ++ face :: rest) given accepted) =
        ⟨.error (.rejected face die),
          scriptHand rest (given + faces.length + 1) (accepted ++ faces.toArray)⟩
  exhausted :
    ∀ given accepted,
      throw (scriptHand faces given accepted) =
        ⟨.error (.refused (.forDie die (.exhausted (given + faces.length)))),
          scriptHand [] (given + faces.length) (accepted ++ faces.toArray)⟩

section

variable {first : Hand Well → Thrown Well Int}
variable {next : Int → Hand Well → Thrown Well Int}
variable {faces more : List Int} {value result die : Int}

theorem Gives.andThen
    (begins : Gives first faces value)
    (continues : Gives (next value) more result) :
    Gives (fun hand => (first hand).andThen next) (faces ++ more) result := by
  intro rest given accepted
  have taken := begins (more ++ rest) given accepted
  have moreTaken := continues rest (given + faces.length) (accepted ++ faces.toArray)
  simp only [List.append_assoc, taken, Thrown.andThen_ok, moreTaken]
  simp [Nat.add_assoc]

theorem Asks.andThen
    (asked : Asks first faces die) :
    Asks (fun hand => (first hand).andThen next) faces die where
  rejected face rest given accepted notAccepted := by
    simp only [asked.rejected face rest given accepted notAccepted, Thrown.andThen_error]
  exhausted given accepted := by
    simp only [asked.exhausted given accepted, Thrown.andThen_error]

theorem Gives.asks
    (begins : Gives first faces value)
    (asked : Asks (next value) more die) :
    Asks (fun hand => (first hand).andThen next) (faces ++ more) die where
  rejected face rest given accepted notAccepted := by
    have taken := begins (more ++ face :: rest) given accepted
    have refused :=
      asked.rejected face rest (given + faces.length) (accepted ++ faces.toArray) notAccepted
    simp only [List.append_assoc, taken, Thrown.andThen_ok, refused]
    simp [Nat.add_assoc]
  exhausted given accepted := by
    have taken := begins more given accepted
    have refused := asked.exhausted (given + faces.length) (accepted ++ faces.toArray)
    simp only [taken, Thrown.andThen_ok, refused]
    simp [Nat.add_assoc]

end

theorem gives_ok (value : Int) :
    Gives (fun hand => ⟨.ok value, hand⟩) [] value := by
  intro rest given accepted
  simp

theorem gives_face
    {face sides : Int}
    (accepted : Accepted face sides) :
    Gives (Well.source.face sides) [face] face := by
  intro rest given earlier
  simp [Source.face, Well.source, Well.draw, scriptHand, accepted]

theorem asks_face (sides : Int) :
    Asks (Well.source.face sides) [] sides where
  rejected face rest given accepted notAccepted := by
    simp [Source.face, Well.source, Well.draw, scriptHand, notAccepted]
  exhausted given accepted := by
    simp [Source.face, Well.source, Well.draw, scriptHand]

/-- What a chain with draws left does behind a face. -/
def afterFace
    (limit : Nat)
    (total face : Int)
    (hand : Hand Well) :
    Thrown Well Int :=
  if face = 6 then
    Well.source.chain limit (total + face) hand
  else
    ⟨.ok (total + face), hand⟩

theorem chain_succ
    (limit : Nat)
    (total : Int) :
    Well.source.chain (limit + 1) total =
      fun hand => (Well.source.face 6 hand).andThen (afterFace limit total) :=
  rfl

/-- A chain with more draws left than there are sixes ends with the face behind them. -/
theorem gives_chain
    {sixes limit : Nat}
    {last : Int}
    (total : Int)
    (lastRange : 1 ≤ last ∧ last ≤ 5)
    (enough : sixes < limit) :
    Gives (Well.source.chain limit total)
      (List.replicate sixes 6 ++ [last])
      (total + (List.replicate sixes 6 ++ [last]).sum) := by
  induction sixes generalizing limit total with
  | zero =>
      obtain ⟨limit, rfl⟩ := Nat.exists_eq_add_one_of_ne_zero (Nat.ne_of_gt enough)
      have inRange : 1 ≤ last ∧ last ≤ 6 := by
        omega
      have ended : Gives (afterFace limit total last) [] (total + last) := by
        have notSix : last ≠ 6 := by
          omega
        unfold afterFace
        simpa only [if_neg notSix] using gives_ok (total + last)
      have whole := (gives_face (accepted_six_iff.mpr inRange)).andThen ended
      rw [chain_succ]
      simpa using whole
  | succ sixes inductionHypothesis =>
      obtain ⟨limit, rfl⟩ :=
        Nat.exists_eq_add_one_of_ne_zero (Nat.ne_of_gt (Nat.zero_lt_of_lt enough))
      have six : Gives (Well.source.face 6) [6] 6 :=
        gives_face (by decide)
      have goesOn : Gives (afterFace limit total 6) _ _ :=
        inductionHypothesis (total + 6) (Nat.lt_of_succ_lt_succ enough)
      have whole := six.andThen goesOn
      rw [chain_succ]
      simpa [List.replicate_succ, Int.add_assoc] using whole

/-- Behind sixes alone a chain with draws left asks for another six-sided die. -/
theorem asks_chain
    {sixes limit : Nat}
    (total : Int)
    (enough : sixes < limit) :
    Asks (Well.source.chain limit total) (List.replicate sixes 6) 6 := by
  induction sixes generalizing limit total with
  | zero =>
      obtain ⟨limit, rfl⟩ := Nat.exists_eq_add_one_of_ne_zero (Nat.ne_of_gt enough)
      exact (asks_face 6).andThen
  | succ sixes inductionHypothesis =>
      obtain ⟨limit, rfl⟩ :=
        Nat.exists_eq_add_one_of_ne_zero (Nat.ne_of_gt (Nat.zero_lt_of_lt enough))
      have six : Gives (Well.source.face 6) [6] 6 :=
        gives_face (by decide)
      have goesOn : Asks (afterFace limit total 6) (List.replicate sixes 6) 6 :=
        inductionHypothesis (total + 6) (Nat.lt_of_succ_lt_succ enough)
      exact six.asks goesOn

section

variable {rules : Rules} {sides : Int} {faces : List Int} {worth die : Int}

theorem position_pair (paired : sides = 66 ∧ rules.whole66 = false) :
    rules.position sides = .pair := by
  simp [Rules.position, pairedSides, paired]

theorem position_exploding (exploding : rules.explode = true ∧ sides = 6) :
    rules.position sides = .exploding := by
  simp [Rules.position, pairedSides, explodingSides, exploding]

theorem position_single
    (notPaired : ¬ (sides = 66 ∧ rules.whole66 = false))
    (notExploding : ¬ (rules.explode = true ∧ sides = 6)) :
    rules.position sides = .single sides := by
  unfold Rules.position pairedSides explodingSides
  rw [if_neg notPaired, if_neg notExploding]

/-- The units of a pair, and what both dice come to. -/
def unitsFor
    (tens : Int)
    (hand : Hand Well) :
    Thrown Well Int :=
  (Well.source.face 6 hand).andThen fun units hand => ⟨.ok (tens * 10 + units), hand⟩

/-- The faces that settle a position are what throwing it takes off a script. -/
theorem PositionSettled.gives (settled : PositionSettled rules sides faces worth) :
    Gives (Well.source.throw (rules.position sides)) faces worth := by
  cases settled with
  | @pair tens units paired tensRange unitsRange =>
      rw [position_pair paired]
      have ended : Gives (unitsFor tens) [units] (tens * 10 + units) :=
        (gives_face (accepted_six_iff.mpr unitsRange)).andThen (gives_ok _)
      have whole := (gives_face (accepted_six_iff.mpr tensRange)).andThen ended
      rw [Int.mul_comm]
      exact whole
  | @chain sixes last exploding lastRange =>
      rw [position_exploding exploding]
      intro rest given accepted
      -- The bound on a chain is taken from the whole script, which holds its sixes.
      have enough : sixes < ((List.replicate sixes 6 ++ [last]) ++ rest).length + 1 := by
        simp only [List.length_append, List.length_replicate]
        omega
      have whole := gives_chain 0 lastRange enough rest given accepted
      rw [Int.zero_add] at whole
      exact whole
  | single notPaired notExploding accepted =>
      rw [position_single notPaired notExploding]
      exact gives_face accepted

/-- Where faces leave a position open, throwing it asks for another die. -/
theorem PositionOpen.asks (opened : PositionOpen rules sides faces die) :
    Asks (Well.source.throw (rules.position sides)) faces die := by
  cases opened with
  | tens paired =>
      rw [position_pair paired]
      exact (asks_face 6).andThen
  | @units tens paired tensRange =>
      rw [position_pair paired]
      have asked : Asks (unitsFor tens) [] 6 :=
        (asks_face 6).andThen
      exact (gives_face (accepted_six_iff.mpr tensRange)).asks asked
  | @chain sixes exploding =>
      rw [position_exploding exploding]
      constructor
      · intro face rest given accepted notAccepted
        have enough : sixes < (List.replicate sixes 6 ++ face :: rest).length + 1 := by
          simp only [List.length_append, List.length_replicate]
          omega
        exact (asks_chain 0 enough).rejected face rest given accepted notAccepted
      · intro given accepted
        have enough : sixes < (List.replicate sixes (6 : Int)).length + 1 := by
          simp
        exact (asks_chain 0 enough).exhausted given accepted
  | single notPaired notExploding =>
      rw [position_single notPaired notExploding]
      exact asks_face sides

/-- What is thrown behind one of several positions. -/
def morePositions
    (position : Position)
    (count : Nat)
    (total worth : Int)
    (hand : Hand Well) :
    Thrown Well Int :=
  Well.source.throwSum position count (total + worth) hand

theorem PositionsSettled.gives
    {count : Nat}
    {sum : Int}
    (settled : PositionsSettled rules sides count faces sum)
    (total : Int) :
    Gives (Well.source.throwSum (rules.position sides) count total) faces
      (total + sum) := by
  induction settled generalizing total with
  | done =>
      rw [Int.add_zero]
      exact gives_ok total
  | @next count block faces worth sum settled rest inductionHypothesis =>
      have goesOn :
          Gives (morePositions (rules.position sides) count total worth) faces
            (total + worth + sum) :=
        inductionHypothesis (total + worth)
      rw [← Int.add_assoc]
      exact settled.gives.andThen goesOn

theorem PositionsOpen.asks
    {count : Nat}
    (opened : PositionsOpen rules sides count faces die)
    (total : Int) :
    Asks (Well.source.throwSum (rules.position sides) count total) faces die := by
  induction opened generalizing total with
  | here opened =>
      exact opened.asks.andThen
  | @later count block faces worth die settled rest inductionHypothesis =>
      have asked :
          Asks (morePositions (rules.position sides) count total worth) faces die :=
        inductionHypothesis (total + worth)
      exact settled.gives.asks asked

/-- What is thrown behind one of several factors. -/
def moreFactors
    (rules : Rules)
    (factors : List Factor)
    (product value : Int)
    (hand : Hand Well) :
    Thrown Well Int :=
  Well.source.throwProduct rules factors (product * value) hand

/-- The modified sum of the positions of a factor. -/
def modified
    (modifier : Modifier)
    (sum : Int)
    (hand : Hand Well) :
    Thrown Well Int :=
  ⟨.ok (modifier.apply sum), hand⟩

theorem PositionsSettled.gives_factor
    {factor : Factor}
    {sum : Int}
    (settled : PositionsSettled rules factor.sides factor.count.toNat faces sum) :
    Gives (Well.source.throwFactor rules factor) faces (factor.modifier.apply sum) := by
  have summed := settled.gives 0
  have ended : Gives (modified factor.modifier (0 + sum)) [] _ :=
    gives_ok (factor.modifier.apply (0 + sum))
  have whole := summed.andThen ended
  rw [List.append_nil, Int.zero_add] at whole
  exact whole

theorem PositionsOpen.asks_factor
    {factor : Factor}
    (opened : PositionsOpen rules factor.sides factor.count.toNat faces die) :
    Asks (Well.source.throwFactor rules factor) faces die :=
  (opened.asks 0).andThen

/-- The faces that settle factors are what throwing them takes off a script. -/
theorem FactorsSettled.gives
    {factors : List Factor}
    {value : Int}
    (settled : FactorsSettled rules factors faces value)
    (product : Int) :
    Gives (Well.source.throwProduct rules factors product) faces (product * value) := by
  induction settled generalizing product with
  | done =>
      rw [Int.mul_one]
      exact gives_ok product
  | @next factor factors faces more sum value settled rest inductionHypothesis =>
      have goesOn :
          Gives (moreFactors rules factors product (factor.modifier.apply sum)) more
            (product * factor.modifier.apply sum * value) :=
        inductionHypothesis (product * factor.modifier.apply sum)
      rw [← Int.mul_assoc]
      exact settled.gives_factor.andThen goesOn

/-- Where faces leave a factor open, throwing the factors asks for another die. -/
theorem FactorsOpen.asks
    {factors : List Factor}
    (opened : FactorsOpen rules factors faces die)
    (product : Int) :
    Asks (Well.source.throwProduct rules factors product) faces die := by
  induction opened generalizing product with
  | here opened =>
      exact opened.asks_factor.andThen
  | @later factor factors faces more sum die settled rest inductionHypothesis =>
      have asked :
          Asks (moreFactors rules factors product (factor.modifier.apply sum)) more die :=
        inductionHypothesis (product * factor.modifier.apply sum)
      exact settled.gives_factor.asks asked

end

/-- A throw takes one part off the front of a script, and comes to one value. -/
theorem Gives.unique
    {throw : Hand Well → Thrown Well Int}
    {faces rest others behind : List Int}
    {value worth : Int}
    (gives : Gives throw faces value)
    (also : Gives throw others worth)
    (shape : faces ++ rest = others ++ behind) :
    faces = others ∧ value = worth := by
  have taken := gives rest 0 #[]
  have alsoTaken := also behind 0 #[]
  rw [shape, alsoTaken] at taken
  injection taken with outcome hand
  injection outcome with sameValue
  injection hand with source _
  injection source with sameRest _
  subst sameRest
  exact ⟨List.append_cancel_right shape, sameValue.symm⟩

/-- Faces that begin with some which a throw takes to come to a value leave it no die to ask for. -/
theorem Gives.not_asks
    {throw : Hand Well → Thrown Well Int}
    {faces more : List Int}
    {value die : Int}
    (gives : Gives throw faces value)
    (asks : Asks throw (faces ++ more) die) :
    False := by
  have taken := gives more 0 #[]
  rw [asks.exhausted 0 #[]] at taken
  cases taken

section

variable (rules : Rules) (code : DiceCode)

/-- Rolling a code from a script of which nothing was given yet. -/
def scriptRoll (script : List Int) : Passage Well Int :=
  Well.source.evaluate rules code (.script script 0)

variable {rules code}

theorem scriptRoll_settled
    {faces : List Int}
    {product : Int}
    (settled : CodeSettled rules code faces product)
    (rest : List Int) :
    (scriptRoll rules code (faces ++ rest)).outcome = .ok (narrow product) ∧
      (scriptRoll rules code (faces ++ rest)).left = .script rest faces.length := by
  have taken := FactorsSettled.gives settled 1 rest 0 #[]
  rw [Int.one_mul, Nat.zero_add] at taken
  have thrown : Well.source.throwCode rules code (.script (faces ++ rest) 0) = _ := taken
  unfold scriptRoll Source.evaluate
  rw [thrown]
  exact ⟨rfl, rfl⟩

theorem scriptRoll_rejected
    {faces rest : List Int}
    {face die : Int}
    (opened : CodeOpen rules code faces die)
    (notAccepted : ¬ Accepted face die) :
    (scriptRoll rules code (faces ++ face :: rest)).outcome =
        .error (.fault (.rejected face die)) ∧
      (scriptRoll rules code (faces ++ face :: rest)).left =
        .script rest (faces.length + 1) := by
  have failed := (FactorsOpen.asks opened 1).rejected face rest 0 #[] notAccepted
  rw [Nat.zero_add] at failed
  have thrown :
      Well.source.throwCode rules code (.script (faces ++ face :: rest) 0) = _ :=
    failed
  unfold scriptRoll Source.evaluate
  rw [thrown]
  exact ⟨rfl, rfl⟩

theorem scriptRoll_exhausted
    {script : List Int}
    {die : Int}
    (opened : CodeOpen rules code script die) :
    (scriptRoll rules code script).outcome =
        .error (.fault (.refused (.forDie die (.exhausted script.length)))) ∧
      (scriptRoll rules code script).left = .script [] script.length := by
  have failed := (FactorsOpen.asks opened 1).exhausted 0 #[]
  rw [Nat.zero_add] at failed
  have thrown : Well.source.throwCode rules code (.script script 0) = _ := failed
  unfold scriptRoll Source.evaluate
  rw [thrown]
  exact ⟨rfl, rfl⟩

end

end Tabletop
