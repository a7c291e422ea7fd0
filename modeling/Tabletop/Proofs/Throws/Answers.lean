import Tabletop.Proofs.Throws.Script

namespace Tabletop

/-!
# What a throw draws

Whatever the source is, a throw draws one die after the other, each of them the
one that the faces before it leave open, until the faces settle what is thrown or
the source fails for the die that is open. `Ends` is that alternative; it passes
through `andThen` and so holds of a whole code: `code_ends`.
-/

/-- Draws that are answered, each of the die that the faces before it leave open. -/
inductive Drawn
    {σ : Type}
    (source : Source σ)
    (Open : List Int → Int → Prop)
    (start : σ) :
    List (Int × Int) → σ → Prop where
  | none :
      Drawn source Open start [] start
  | next
      {rolls : List (Int × Int)}
      {state left : σ}
      {die face : Int}
      (drawn : Drawn source Open start rolls state)
      (opened : Open (rolls.map Prod.snd) die)
      (answer : source.draw die state = (.ok face, left)) :
      Drawn source Open start (rolls ++ [(die, face)]) left

/-- How a source fails for a die, and the state it is left in. -/
inductive Breaks
    {σ : Type}
    (source : Source σ)
    (die : Int)
    (state : σ) :
    Fault → σ → Prop where
  | refused
      {refusal : Refusal}
      {left : σ}
      (answer : source.draw die state = (.error refusal, left)) :
      Breaks source die state (.refused refusal) left
  | rejected
      {face : Int}
      {left : σ}
      (answer : source.draw die state = (.ok face, left))
      (notAccepted : ¬ Accepted face die) :
      Breaks source die state (.rejected face die) left
  /-- The source has shown so many sixes that it is asked for no more. -/
  | endless :
      Breaks source die state .endless state

/--
Everything that a throw can come to from a hand: faces that settle it, all of
them accepted, or faces that leave it open at a die for which the source fails.
-/
inductive Ends
    {σ : Type}
    (source : Source σ)
    (Settled Open : List Int → Int → Prop)
    (hand : Hand σ) :
    Thrown σ Int → Prop where
  | settled
      {rolls : List (Int × Int)}
      {left : σ}
      {value : Int}
      (drawn : Drawn source Open hand.source rolls left)
      (settled : Settled (rolls.map Prod.snd) value) :
      Ends source Settled Open hand
        ⟨.ok value, ⟨left, hand.faces ++ (rolls.map Prod.snd).toArray⟩⟩
  | broken
      {rolls : List (Int × Int)}
      {state left : σ}
      {die : Int}
      {fault : Fault}
      (drawn : Drawn source Open hand.source rolls state)
      (opened : Open (rolls.map Prod.snd) die)
      (breaks : Breaks source die state fault left) :
      Ends source Settled Open hand
        ⟨.error fault, ⟨left, hand.faces ++ (rolls.map Prod.snd).toArray⟩⟩

section

variable {σ : Type} {source : Source σ} {hand : Hand σ}

namespace Drawn

variable {Open Whole : List Int → Int → Prop}
variable {start middle left : σ} {rolls more : List (Int × Int)}

theorem widen
    (drawn : Drawn source Open start rolls left)
    (wider : ∀ {faces die}, Open faces die → Whole faces die) :
    Drawn source Whole start rolls left := by
  induction drawn with
  | none =>
      exact .none
  | next drawn opened answer inductionHypothesis =>
      exact .next inductionHypothesis (wider opened) answer

/-- Draws go on behind others where the faces of both leave the dice open. -/
theorem append
    (drawn : Drawn source Whole start rolls middle)
    (goesOn : Drawn source Open middle more left)
    (behind : ∀ {faces die}, Open faces die → Whole (rolls.map Prod.snd ++ faces) die) :
    Drawn source Whole start (rolls ++ more) left := by
  induction goesOn with
  | none =>
      rw [List.append_nil]
      exact drawn
  | @next more state left die face goesOn opened answer inductionHypothesis =>
      rw [← List.append_assoc]
      refine .next inductionHypothesis ?_ answer
      rw [List.map_append]
      exact behind opened

/-- Where the faces determine which die is open, they determine all draws. -/
theorem rolls_eq
    {τ : Type}
    {other : Source τ}
    {otherStart otherLeft : τ}
    {otherRolls : List (Int × Int)}
    (drawn : Drawn source Open start rolls left)
    (also : Drawn other Open otherStart otherRolls otherLeft)
    (determined : ∀ {faces die otherDie}, Open faces die → Open faces otherDie → die = otherDie)
    (same : rolls.map Prod.snd = otherRolls.map Prod.snd) :
    rolls = otherRolls := by
  induction drawn generalizing otherRolls otherLeft with
  | none =>
      rw [List.map_nil] at same
      exact (List.map_eq_nil_iff.mp same.symm).symm
  | @next rolls state left die face drawn opened answer inductionHypothesis =>
      cases also with
      | none =>
          simp at same
      | @next others otherState _ otherDie otherFace also otherOpened otherAnswer =>
          simp only [List.map_append, List.map_cons, List.map_nil] at same
          obtain ⟨sameFaces, sameFace⟩ := List.append_inj' same rfl
          obtain rfl := inductionHypothesis also sameFaces
          rw [determined opened otherOpened, List.singleton_inj.mp sameFace]

/-- What a notebook in front of a source holds is what was drawn. -/
theorem recorded_toList
    {start left : Recorded σ}
    (drawn : Drawn source.recorded Open start rolls left) :
    left.rolls.toList = start.rolls.toList ++ rolls := by
  induction drawn with
  | none =>
      rw [List.append_nil]
  | @next rolls state left die face drawn opened answer inductionHypothesis =>
      have written := source.recorded_rolls die state
      have answered := source.recorded_answer die state
      rw [answer] at written answered
      rw [← answered] at written
      rw [show left.rolls = _ from written, Array.toList_push, inductionHypothesis,
        List.append_assoc]

end Drawn

theorem Ends.widen
    {Settled Open Whole WholeOpen : List Int → Int → Prop}
    {thrown : Thrown σ Int}
    (ends : Ends source Settled Open hand thrown)
    (settled : ∀ {faces value}, Settled faces value → Whole faces value)
    (opened : ∀ {faces die}, Open faces die → WholeOpen faces die) :
    Ends source Whole WholeOpen hand thrown := by
  cases ends with
  | settled drawn done =>
      exact .settled (drawn.widen opened) (settled done)
  | broken drawn atDie breaks =>
      exact .broken (drawn.widen opened) (opened atDie) breaks

private theorem faces_append
    (faces : Array Int)
    (rolls more : List (Int × Int)) :
    faces ++ (rolls.map Prod.snd).toArray ++ (more.map Prod.snd).toArray =
      faces ++ ((rolls ++ more).map Prod.snd).toArray := by
  simp

theorem Ends.andThen
    {First FirstOpen Settled Open : List Int → Int → Prop}
    {thrown : Thrown σ Int}
    {next : Int → Hand σ → Thrown σ Int}
    (Next NextOpen : Int → List Int → Int → Prop)
    (begins : Ends source First FirstOpen hand thrown)
    (continues : ∀ value hand, Ends source (Next value) (NextOpen value) hand (next value hand))
    (both :
      ∀ {faces more a b}, First faces a → Next a more b → Settled (faces ++ more) b)
    (openFirst : ∀ {faces die}, FirstOpen faces die → Open faces die)
    (openNext :
      ∀ {faces more a die}, First faces a → NextOpen a more die → Open (faces ++ more) die) :
    Ends source Settled Open hand (thrown.andThen next) := by
  cases begins with
  | broken drawn opened breaks =>
      exact .broken (drawn.widen openFirst) (openFirst opened) breaks
  | @settled rolls middle value drawn settled =>
      rw [Thrown.andThen_ok]
      have whole := continues value ⟨middle, hand.faces ++ (rolls.map Prod.snd).toArray⟩
      revert whole
      generalize next value ⟨middle, hand.faces ++ (rolls.map Prod.snd).toArray⟩ = thrown
      intro whole
      cases whole with
      | @settled more left result goesOn restSettled =>
          have drawnBoth := (drawn.widen openFirst).append goesOn (openNext settled)
          have settledBoth := both settled restSettled
          rw [← List.map_append] at settledBoth
          rw [faces_append]
          exact .settled drawnBoth settledBoth
      | @broken more state left die fault goesOn restOpened breaks =>
          have drawnBoth := (drawn.widen openFirst).append goesOn (openNext settled)
          have openedBoth := openNext settled restOpened
          rw [← List.map_append] at openedBoth
          rw [faces_append]
          exact .broken drawnBoth openedBoth breaks

/-- A throw that comes to a value without drawing. -/
theorem ends_ok
    {Settled Open : List Int → Int → Prop}
    {value : Int}
    (settled : Settled [] value)
    (hand : Hand σ) :
    Ends source Settled Open hand ⟨.ok value, hand⟩ :=
  .settled .none settled

/-- One face that is accepted settles a single die. -/
def FaceSettled
    (sides : Int)
    (faces : List Int)
    (value : Int) :
    Prop :=
  faces = [value] ∧ Accepted value sides

/-- A single die is open before its face is drawn. -/
def FaceOpen
    (sides : Int)
    (faces : List Int)
    (die : Int) :
    Prop :=
  faces = [] ∧ die = sides

theorem face_ends
    (source : Source σ)
    (sides : Int)
    (hand : Hand σ) :
    Ends source (FaceSettled sides) (FaceOpen sides) hand (source.face sides hand) := by
  unfold Source.face
  cases answer : source.draw sides hand.source with
  | mk drawn state =>
      cases drawn with
      | error refusal =>
          exact .broken .none ⟨rfl, rfl⟩ (.refused answer)
      | ok face =>
          simp only
          split
          · next accepted =>
              have drawn : Drawn source (FaceOpen sides) hand.source [(sides, face)] state :=
                Drawn.none.next ⟨rfl, rfl⟩ answer
              rw [Array.push_eq_append]
              exact .settled drawn ⟨rfl, accepted⟩
          · next notAccepted =>
              exact .broken .none ⟨rfl, rfl⟩ (.rejected answer notAccepted)

/-- Sixes and a last face settle a chain that a total stands in front of. -/
def ChainSettled
    (total : Int)
    (faces : List Int)
    (value : Int) :
    Prop :=
  ∃ sixes last,
    (1 ≤ last ∧ last ≤ 5) ∧
      faces = List.replicate sixes 6 ++ [last] ∧
      value = total + faces.sum

/-- A chain is open behind sixes alone. -/
def ChainOpen
    (faces : List Int)
    (die : Int) :
    Prop :=
  ∃ sixes, faces = List.replicate sixes 6 ∧ die = 6

/-- What settles a chain behind one face: a chain behind a six, nothing behind any other face. -/
def AfterFace
    (total face : Int)
    (faces : List Int)
    (value : Int) :
    Prop :=
  (face = 6 ∧ ChainSettled (total + face) faces value) ∨
    (face ≠ 6 ∧ faces = [] ∧ value = total + face)

theorem chain_ends
    (source : Source σ)
    (limit : Nat)
    (total : Int)
    (hand : Hand σ) :
    Ends source (ChainSettled total) ChainOpen hand (source.chain limit total hand) := by
  induction limit generalizing total hand with
  | zero =>
      exact .broken .none ⟨0, rfl, rfl⟩ .endless
  | succ limit inductionHypothesis =>
      apply (face_ends source 6 hand).andThen (AfterFace total)
        fun face faces die => face = 6 ∧ ChainOpen faces die
      · intro face hand
        split
        · next six =>
            exact (inductionHypothesis (total + face) hand).widen
              (fun settled => .inl ⟨six, settled⟩) fun opened => ⟨six, opened⟩
        · next notSix =>
            exact ends_ok (.inr ⟨notSix, rfl, rfl⟩) hand
      · rintro faces more face value ⟨rfl, accepted⟩ (⟨rfl, goesOn⟩ | ⟨notSix, rfl, rfl⟩)
        · obtain ⟨sixes, last, lastRange, rfl, rfl⟩ := goesOn
          refine ⟨sixes + 1, last, lastRange, rfl, ?_⟩
          simp [Int.add_assoc]
        · have inRange := accepted_six_iff.mp accepted
          have lastRange : 1 ≤ face ∧ face ≤ 5 := by
            change face ≠ 6 at notSix
            omega
          exact ⟨0, face, lastRange, rfl, by simp⟩
      · rintro faces die ⟨rfl, rfl⟩
        exact ⟨0, rfl, rfl⟩
      · rintro faces more face die ⟨rfl, -⟩ ⟨rfl, sixes, rfl, rfl⟩
        exact ⟨sixes + 1, rfl, rfl⟩

/-- What settles a pair behind its tens. -/
def UnitsSettled
    (tens : Int)
    (faces : List Int)
    (value : Int) :
    Prop :=
  ∃ units, (1 ≤ units ∧ units ≤ 6) ∧ faces = [units] ∧ value = tens * 10 + units

theorem units_ends
    (source : Source σ)
    (tens : Int)
    (hand : Hand σ) :
    Ends source (UnitsSettled tens) (FaceOpen 6) hand
      ((source.face 6 hand).andThen fun units hand => ⟨.ok (tens * 10 + units), hand⟩) := by
  apply (face_ends source 6 hand).andThen
    (fun units faces value => faces = [] ∧ value = tens * 10 + units) fun _ _ _ => False
  · intro units hand
    exact ends_ok ⟨rfl, rfl⟩ hand
  · rintro faces more units value ⟨rfl, accepted⟩ ⟨rfl, rfl⟩
    exact ⟨units, accepted_six_iff.mp accepted, rfl, rfl⟩
  · exact id
  · nofun

section

variable (source : Source σ) (rules : Rules)

theorem position_ends
    (sides : Int)
    (hand : Hand σ) :
    Ends source (PositionSettled rules sides) (PositionOpen rules sides) hand
      (source.throw (rules.position sides) hand) := by
  by_cases paired : sides = 66 ∧ rules.whole66 = false
  · rw [position_pair paired]
    apply (face_ends source 6 hand).andThen UnitsSettled fun _ => FaceOpen 6
    · exact units_ends source
    · rintro faces more tens value ⟨rfl, accepted⟩ ⟨units, unitsRange, rfl, rfl⟩
      rw [Int.mul_comm]
      exact .pair paired (accepted_six_iff.mp accepted) unitsRange
    · rintro faces die ⟨rfl, rfl⟩
      exact .tens paired
    · rintro faces more tens die ⟨rfl, accepted⟩ ⟨rfl, rfl⟩
      exact .units paired (accepted_six_iff.mp accepted)
  · by_cases exploding : rules.explode = true ∧ sides = 6
    · rw [position_exploding exploding]
      apply (chain_ends source (source.streak hand.source + 1) 0 hand).widen
      · rintro faces value ⟨sixes, last, lastRange, rfl, rfl⟩
        rw [Int.zero_add]
        exact .chain exploding lastRange
      · rintro faces die ⟨sixes, rfl, rfl⟩
        exact .chain exploding
    · rw [position_single paired exploding]
      apply (face_ends source sides hand).widen
      · rintro faces value ⟨rfl, accepted⟩
        exact .single paired exploding accepted
      · rintro faces die ⟨rfl, rfl⟩
        exact .single paired exploding

theorem positions_ends
    (sides : Int)
    (count : Nat)
    (total : Int)
    (hand : Hand σ) :
    Ends source
      (fun faces value => ∃ sum, PositionsSettled rules sides count faces sum ∧ value = total + sum)
      (PositionsOpen rules sides count)
      hand
      (source.throwSum (rules.position sides) count total hand) := by
  induction count generalizing total hand with
  | zero =>
      exact ends_ok ⟨0, .done, (Int.add_zero total).symm⟩ hand
  | succ count inductionHypothesis =>
      apply (position_ends source rules sides hand).andThen
        (fun worth faces value =>
          ∃ sum, PositionsSettled rules sides count faces sum ∧ value = total + worth + sum)
        fun _ => PositionsOpen rules sides count
      · intro worth hand
        exact inductionHypothesis (total + worth) hand
      · rintro faces more worth value settled ⟨sum, rest, rfl⟩
        exact ⟨worth + sum, .next settled rest, Int.add_assoc total worth sum⟩
      · exact .here
      · exact .later

theorem factor_ends
    (factor : Factor)
    (hand : Hand σ) :
    Ends source
      (fun faces value =>
        ∃ sum,
          PositionsSettled rules factor.sides factor.count.toNat faces sum ∧
            value = factor.modifier.apply sum)
      (PositionsOpen rules factor.sides factor.count.toNat)
      hand
      (source.throwFactor rules factor hand) := by
  apply (positions_ends source rules factor.sides factor.count.toNat 0 hand).andThen
    (fun sum faces value => faces = [] ∧ value = factor.modifier.apply sum) fun _ _ _ => False
  · intro sum hand
    exact ends_ok ⟨rfl, rfl⟩ hand
  · rintro faces more sum value ⟨rest, settled, rfl⟩ ⟨rfl, rfl⟩
    rw [List.append_nil]
    exact ⟨rest, settled, by rw [Int.zero_add]⟩
  · exact id
  · nofun

theorem factors_ends
    (factors : List Factor)
    (product : Int)
    (hand : Hand σ) :
    Ends source
      (fun faces value => ∃ worth, FactorsSettled rules factors faces worth ∧ value = product * worth)
      (FactorsOpen rules factors)
      hand
      (source.throwProduct rules factors product hand) := by
  induction factors generalizing product hand with
  | nil =>
      exact ends_ok ⟨1, .done, (Int.mul_one product).symm⟩ hand
  | cons factor factors inductionHypothesis =>
      apply (factor_ends source rules factor hand).andThen
        (fun value faces result =>
          ∃ worth, FactorsSettled rules factors faces worth ∧ result = product * value * worth)
        fun _ => FactorsOpen rules factors
      · intro value hand
        exact inductionHypothesis (product * value) hand
      · rintro faces more value result ⟨sum, settled, rfl⟩ ⟨worth, rest, rfl⟩
        exact ⟨_, .next settled rest, Int.mul_assoc product _ worth⟩
      · exact .here
      · rintro faces more value die ⟨sum, settled, -⟩ rest
        exact .later settled rest

/-- The faces drawn for a code settle it, or leave it open at a die for which the source fails. -/
theorem code_ends
    (code : DiceCode)
    (state : σ) :
    Ends source (CodeSettled rules code) (CodeOpen rules code) { source := state }
      (source.throwCode rules code state) := by
  apply (factors_ends source (rules.forCode code) code.factors 1 { source := state }).widen
  · rintro faces value ⟨worth, settled, rfl⟩
    rw [Int.one_mul]
    exact settled
  · exact id

/-- Where throwing a code has a value, the faces that were drawn settle the code with it. -/
theorem throwCode_settled
    {source : Source σ}
    {rules : Rules}
    {code : DiceCode}
    {state : σ}
    {product : Int}
    (thrown : (source.throwCode rules code state).outcome = .ok product) :
    ∃ rolls,
      Drawn source (CodeOpen rules code) state rolls
          (source.throwCode rules code state).hand.source ∧
        CodeSettled rules code (rolls.map Prod.snd) product := by
  have ended := code_ends source rules code state
  revert ended thrown
  generalize source.throwCode rules code state = thrown
  intro outcome ended
  cases ended with
  | broken drawn opened breaks =>
      cases outcome
  | settled drawn settled =>
      cases outcome
      exact ⟨_, drawn, settled⟩

/-- Where throwing a code fails, the source fails for a die that the faces before it leave open. -/
theorem throwCode_broken
    {source : Source σ}
    {rules : Rules}
    {code : DiceCode}
    {state : σ}
    {fault : Fault}
    (thrown : (source.throwCode rules code state).outcome = .error fault) :
    ∃ rolls between left die,
      Drawn source (CodeOpen rules code) state rolls between ∧
        CodeOpen rules code (rolls.map Prod.snd) die ∧ Breaks source die between fault left := by
  have ended := code_ends source rules code state
  revert ended thrown
  generalize source.throwCode rules code state = thrown
  intro outcome ended
  cases ended with
  | settled drawn settled =>
      cases outcome
  | broken drawn opened breaks =>
      cases outcome
      exact ⟨_, _, _, _, drawn, opened, breaks⟩

end

end

section

variable {rules : Rules} {faces otherFaces : List Int} {sides die otherDie : Int}

/-- The dice of a position are all of one kind. -/
theorem PositionOpen.die_eq
    (opened : PositionOpen rules sides faces die)
    (also : PositionOpen rules sides otherFaces otherDie) :
    die = otherDie := by
  by_cases six : (sides = 66 ∧ rules.whole66 = false) ∨ (rules.explode = true ∧ sides = 6)
  · have isSix {faces : List Int} {die : Int} (opened : PositionOpen rules sides faces die) :
        die = 6 := by
      cases opened with
      | single notPaired notExploding => exact (six.elim notPaired notExploding).elim
      | _ => rfl
    rw [isSix opened, isSix also]
  · obtain ⟨notPaired, notExploding⟩ := not_or.mp six
    have isWhole {faces : List Int} {die : Int} (opened : PositionOpen rules sides faces die) :
        die = sides := by
      cases opened with
      | tens paired => exact absurd paired notPaired
      | units paired => exact absurd paired notPaired
      | chain exploding => exact absurd exploding notExploding
      | single => rfl
    rw [isWhole opened, isWhole also]

theorem PositionsOpen.exists_open
    {count : Nat}
    (opened : PositionsOpen rules sides count faces die) :
    ∃ behind, PositionOpen rules sides behind die := by
  induction opened with
  | here opened => exact ⟨_, opened⟩
  | later settled rest inductionHypothesis => exact inductionHypothesis

/-- Which die is open is determined by the faces drawn so far. -/
theorem FactorsOpen.die_eq
    {factors : List Factor}
    (opened : FactorsOpen rules factors faces die)
    (also : FactorsOpen rules factors faces otherDie) :
    die = otherDie := by
  induction factors generalizing faces with
  | nil =>
      cases opened
  | cons factor factors inductionHypothesis =>
      cases opened with
      | here opened =>
          cases also with
          | here also =>
              obtain ⟨_, opened⟩ := opened.exists_open
              obtain ⟨_, also⟩ := also.exists_open
              exact opened.die_eq also
          | later settled rest =>
              exact (settled.gives_factor.not_asks opened.asks_factor).elim
      | @later _ _ faces more sum _ settled rest =>
          generalize whole : faces ++ more = drawn at also
          cases also with
          | here also =>
              subst whole
              exact (settled.gives_factor.not_asks also.asks_factor).elim
          | later otherSettled otherRest =>
              obtain ⟨rfl, -⟩ := settled.gives_factor.unique otherSettled.gives_factor whole
              obtain rfl := List.append_cancel_left whole
              exact inductionHypothesis rest otherRest

theorem CodeOpen.die_eq
    {code : DiceCode}
    (opened : CodeOpen rules code faces die)
    (also : CodeOpen rules code faces otherDie) :
    die = otherDie :=
  FactorsOpen.die_eq opened also

end

end Tabletop
