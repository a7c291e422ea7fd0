import Tabletop.Proofs.Throws.Alike

namespace Tabletop

/-!
# How many dice are asked for

Only a chain of exploding sixes takes as many draws as the source likes. Where the
source shows another face among so many draws of a six-sided die, whatever was
drawn before, a chain ends within that many draws. A code then takes that many, or
two, for each of its positions: `evaluate_within`. Where no sixes explode the same
holds of every source that answers.
-/

/-- The positions that factors have together; a count of zero or less stands for none. -/
def positionCount : List Factor → Nat
  | [] => 0
  | factor :: factors => factor.count.toNat + positionCount factors

/-- Whether a die has a face. -/
def HasFace (die face : Int) : Prop :=
  1 ≤ face ∧ face ≤ die

namespace Source

variable {σ : Type}

/-- The dice that are asked for when a code is rolled, answered or not, in order. -/
def diceAsked
    (source : Source σ)
    (rules : Rules)
    (code : DiceCode)
    (state : σ) :
    List Int :=
  (source.watched.evaluate rules code { inner := state }).left.asked

/-- Among so many draws of a six-sided die, one after the other, not all show a six. -/
def OtherWithin (source : Source σ) : Nat → σ → Prop
  | 0, _ => False
  | draws + 1, state =>
      (source.draw 6 state).1 = .ok 6 → source.OtherWithin draws (source.draw 6 state).2

/--
Every state that is reached answers the given dice, each with one of the faces that
are given for it, and leads to such a state.
-/
structure Answers
    (source : Source σ)
    (Dice : Int → Prop)
    (Faces : Int → Int → Prop)
    (Reached : σ → Prop) :
    Prop where
  six : Dice 6
  answer :
    ∀ {die : Int} {state : σ},
      Dice die → Reached state →
        ∃ face left,
          source.draw die state = (.ok face, left) ∧ Reached left ∧ Faces die face

/-- Sixes end within so many draws of every state that is reached, and chains may be that long. -/
structure SixesEnd
    (source : Source σ)
    (Reached : σ → Prop)
    (draws : Nat) :
    Prop where
  other : ∀ {state : σ}, Reached state → source.OtherWithin draws state
  enough : ∀ {state : σ}, Reached state → draws ≤ source.streak state + 1

end Source

/-- The faults of faces that are given for one of the dice and are not accepted for it. -/
def Rejection
    (Dice : Int → Prop)
    (Faces : Int → Int → Prop)
    (fault : Fault) :
    Prop :=
  ∃ die face, Dice die ∧ Faces die face ∧ ¬ Accepted face die ∧ fault = .rejected face die

/-- A throw from a hand asks for so many dice at most, and fails in an allowed way only. -/
structure Thrown.Within
    {σ α : Type}
    (Allowed : Fault → Prop)
    (Reached : σ → Prop)
    (draws : Nat)
    (hand : Hand (Watched σ))
    (thrown : Thrown (Watched σ) α) :
    Prop where
  reached : Reached thrown.hand.source.inner
  asked : thrown.hand.source.asked.length ≤ hand.source.asked.length + draws
  allowed : ∀ fault, thrown.outcome = .error fault → Allowed fault

section

variable {σ α β : Type} {source : Source σ}
variable {Dice : Int → Prop} {Faces : Int → Int → Prop} {Allowed : Fault → Prop}
variable {Reached : σ → Prop}
variable {draws more reach : Nat} {hand : Hand (Watched σ)}

namespace Thrown.Within

theorem ok
    (reached : Reached hand.source.inner)
    (value : α) :
    Within Allowed Reached 0 hand ⟨.ok value, hand⟩ where
  reached := reached
  asked := Nat.le_refl _
  allowed := nofun

theorem mono
    {thrown : Thrown (Watched σ) α}
    (within : Within Allowed Reached draws hand thrown)
    (le : draws ≤ more) :
    Within Allowed Reached more hand thrown where
  reached := within.reached
  asked := Nat.le_trans within.asked (Nat.add_le_add_left le _)
  allowed := within.allowed

theorem andThen
    {thrown : Thrown (Watched σ) α}
    {next : α → Hand (Watched σ) → Thrown (Watched σ) β}
    (begins : Within Allowed Reached draws hand thrown)
    (continues :
      ∀ value {hand : Hand (Watched σ)},
        Reached hand.source.inner → Within Allowed Reached more hand (next value hand)) :
    Within Allowed Reached (draws + more) hand (thrown.andThen next) := by
  rcases thrown with ⟨fault | value, between⟩
  · refine ⟨begins.reached, Nat.le_trans begins.asked (by omega), ?_⟩
    rintro fault ⟨⟩
    exact begins.allowed _ rfl
  · have reached : Reached between.source.inner := begins.reached
    have rest := continues value reached
    have askedFirst : between.source.asked.length ≤ hand.source.asked.length + draws :=
      begins.asked
    exact ⟨rest.reached, Nat.le_trans rest.asked (by omega), rest.allowed⟩

end Thrown.Within

/-- A single die has the sides that are written. -/
theorem position_sides
    {rules : Rules}
    {sides die : Int}
    (position : rules.position sides = .single die) :
    die = sides := by
  unfold Rules.position at position
  split at position
  · cases position
  · split at position <;> cases position
    rfl

/-- Only six-sided dice explode, and only under rules that say so. -/
theorem exploding_of_position
    {rules : Rules}
    {sides : Int}
    (position : rules.position sides = .exploding) :
    rules.explode = true ∧ sides = 6 := by
  unfold Rules.position at position
  split at position
  · cases position
  · split at position
    · assumption
    · cases position

namespace Source

theorem OtherWithin.mono
    {state : σ}
    (other : source.OtherWithin draws state)
    (le : draws ≤ more) :
    source.OtherWithin more state := by
  induction draws generalizing more state with
  | zero =>
      exact other.elim
  | succ draws inductionHypothesis =>
      obtain ⟨more, rfl⟩ := Nat.exists_eq_add_one_of_ne_zero (Nat.ne_of_gt (Nat.zero_lt_of_lt le))
      exact fun six => inductionHypothesis (other six) (Nat.le_of_succ_le_succ le)

namespace Answers

/-- A source that answers some dice answers any of them. -/
theorem narrow
    {Fewer : Int → Prop}
    (answers : source.Answers Dice Faces Reached)
    (six : Fewer 6)
    (fewer : ∀ {die}, Fewer die → Dice die) :
    source.Answers Fewer Faces Reached where
  six := six
  answer dice reached := answers.answer (fewer dice) reached

variable (answers : source.Answers Dice Faces Reached)

include answers

/-- Drawing a face asks for one die, and either accepts the face or fails for it. -/
theorem face_cases
    {die : Int}
    (dice : Dice die)
    (reached : Reached hand.source.inner) :
    ∃ face next,
      source.draw die hand.source.inner = (.ok face, next.source.inner) ∧
        Reached next.source.inner ∧
        next.source.asked.length = hand.source.asked.length + 1 ∧
        (source.watched.face die hand = ⟨.ok face, next⟩ ∨
          (source.watched.face die hand = ⟨.error (.rejected face die), next⟩ ∧
            Rejection Dice Faces (.rejected face die))) := by
  obtain ⟨face, left, answer, goesOn, given⟩ := answers.answer dice reached
  let watched : Watched σ := { inner := left, asked := hand.source.asked ++ [die] }
  have drawn : source.watched.draw die hand.source = (.ok face, watched) := by
    simp only [Source.watched, answer, watched]
  by_cases accepted : Accepted face die
  · refine ⟨face, { source := watched, faces := hand.faces.push face }, answer, goesOn, ?_, .inl ?_⟩
    · simp [watched]
    · simp only [Source.face, drawn, if_pos accepted]
  · refine ⟨face, { hand with source := watched }, answer, goesOn, ?_, .inr ⟨?_, ?_⟩⟩
    · simp [watched]
    · simp only [Source.face, drawn, if_neg accepted]
    · exact ⟨die, face, dice, given, accepted, rfl⟩

theorem face_within
    {die : Int}
    (dice : Dice die)
    (reached : Reached hand.source.inner) :
    Thrown.Within (Rejection Dice Faces) Reached 1 hand (source.watched.face die hand) := by
  obtain ⟨face, next, -, goesOn, asked, thrown | ⟨thrown, allowed⟩⟩ :=
    answers.face_cases dice reached
  · rw [thrown]
    exact ⟨goesOn, Nat.le_of_eq asked, nofun⟩
  · rw [thrown]
    refine ⟨goesOn, Nat.le_of_eq asked, ?_⟩
    rintro fault ⟨⟩
    exact allowed

/-- A chain takes no more draws than the source takes to show another face than a six. -/
theorem chain_within
    {limit : Nat}
    (other : source.OtherWithin draws hand.source.inner)
    (enough : draws ≤ limit)
    (total : Int)
    (reached : Reached hand.source.inner) :
    Thrown.Within (Rejection Dice Faces) Reached draws hand
      (source.watched.chain limit total hand) := by
  -- On the draws among which another face shows: the bound of the chain is never met.
  induction draws generalizing limit total hand with
  | zero =>
      exact other.elim
  | succ draws inductionHypothesis =>
      obtain ⟨limit, rfl⟩ :=
        Nat.exists_eq_add_one_of_ne_zero (Nat.ne_of_gt (Nat.zero_lt_of_lt enough))
      obtain ⟨face, next, answer, goesOn, asked, thrown | ⟨thrown, allowed⟩⟩ :=
        answers.face_cases answers.six reached
      · unfold chain
        rw [show explodingSides = 6 from rfl, thrown, Thrown.andThen_ok]
        split
        · next six =>
            rw [OtherWithin, answer] at other
            have rest := inductionHypothesis (other (congrArg Except.ok six))
              (Nat.le_of_succ_le_succ enough) (total + face) goesOn
            have askedAfter := rest.asked
            exact ⟨rest.reached, by omega, rest.allowed⟩
        · exact ⟨goesOn, by simp only [asked]; omega, nofun⟩
      · unfold chain
        rw [show explodingSides = 6 from rfl, thrown, Thrown.andThen_error]
        refine ⟨goesOn, by simp only [asked]; omega, ?_⟩
        rintro fault ⟨⟩
        exact allowed

/-- A position takes no more draws than a chain does, or two where it is a pair. -/
theorem throw_within
    {position : Position}
    (dice : ∀ sides, position = .single sides → Dice sides)
    (sixesEnd : position = .exploding → source.SixesEnd Reached reach)
    (reached : Reached hand.source.inner) :
    Thrown.Within (Rejection Dice Faces) Reached (max 2 reach) hand
      (source.watched.throw position hand) := by
  cases position with
  | single sides =>
      exact (answers.face_within (dice sides rfl) reached).mono (by omega)
  | exploding =>
      have ends := sixesEnd rfl
      exact (answers.chain_within (ends.other reached) (ends.enough reached) 0 reached).mono
        (by omega)
  | pair =>
      have both :
          Thrown.Within (Rejection Dice Faces) Reached (1 + (1 + 0)) hand
            (source.watched.throw .pair hand) := by
        apply (answers.face_within answers.six reached).andThen
        intro tens hand reached
        apply (answers.face_within answers.six reached).andThen
        intro units hand reached
        exact .ok reached _
      exact both.mono (by omega)

theorem throwSum_within
    {position : Position}
    (dice : ∀ sides, position = .single sides → Dice sides)
    (sixesEnd : position = .exploding → source.SixesEnd Reached reach)
    (count : Nat)
    (total : Int)
    (reached : Reached hand.source.inner) :
    Thrown.Within (Rejection Dice Faces) Reached (max 2 reach * count) hand
      (source.watched.throwSum position count total hand) := by
  induction count generalizing total hand with
  | zero =>
      exact .ok reached total
  | succ count inductionHypothesis =>
      rw [Nat.mul_succ, Nat.add_comm]
      apply (answers.throw_within dice sixesEnd reached).andThen
      intro worth hand reached
      exact inductionHypothesis (total + worth) reached

variable {rules : Rules}

theorem throwFactor_within
    {factor : Factor}
    (dice : Dice factor.sides)
    (sixesEnd : rules.position factor.sides = .exploding → source.SixesEnd Reached reach)
    (reached : Reached hand.source.inner) :
    Thrown.Within (Rejection Dice Faces) Reached (max 2 reach * factor.count.toNat) hand
      (source.watched.throwFactor rules factor hand) := by
  have single : ∀ sides, rules.position factor.sides = .single sides → Dice sides := by
    intro sides position
    rw [position_sides position]
    exact dice
  have summed := answers.throwSum_within single sixesEnd factor.count.toNat 0 reached
  have modified :
      Thrown.Within (Rejection Dice Faces) Reached (max 2 reach * factor.count.toNat + 0) hand
        (source.watched.throwFactor rules factor hand) :=
    summed.andThen fun _ _ reached => .ok reached _
  exact modified

theorem throwProduct_within
    {factors : List Factor}
    (dice : ∀ factor ∈ factors, Dice factor.sides)
    (sixesEnd :
      ∀ factor ∈ factors,
        rules.position factor.sides = .exploding → source.SixesEnd Reached reach)
    (product : Int)
    (reached : Reached hand.source.inner) :
    Thrown.Within (Rejection Dice Faces) Reached (max 2 reach * positionCount factors) hand
      (source.watched.throwProduct rules factors product hand) := by
  induction factors generalizing product hand with
  | nil =>
      exact .ok reached product
  | cons factor factors inductionHypothesis =>
      obtain ⟨firstDice, restDice⟩ := List.forall_mem_cons.mp dice
      obtain ⟨firstEnds, restEnd⟩ := List.forall_mem_cons.mp sixesEnd
      rw [positionCount, Nat.mul_add]
      apply (answers.throwFactor_within firstDice firstEnds reached).andThen
      intro value hand reached
      exact inductionHypothesis restDice restEnd (product * value) reached

/-- A roll asks for so many dice at most for each position, and fails for a given face only. -/
theorem evaluate_within
    (rules : Rules)
    (code : DiceCode)
    {state : σ}
    (dice : ∀ factor ∈ code.factors, Dice factor.sides)
    (sixesEnd :
      ∀ factor ∈ code.factors,
        (rules.forCode code).position factor.sides = .exploding →
          source.SixesEnd Reached reach)
    (reached : Reached state) :
    (source.diceAsked rules code state).length ≤ max 2 reach * positionCount code.factors ∧
      ((∃ total, (source.evaluate rules code state).outcome = .ok total) ∨
        ∃ die face,
          Dice die ∧
            Faces die face ∧
            ¬ Accepted face die ∧
            (source.evaluate rules code state).outcome =
              .error (.fault (.rejected face die))) := by
  have alike := source.alike_watched.evaluate (s := { inner := state }) rfl rules code
  have within :
      Thrown.Within (Rejection Dice Faces) Reached (max 2 reach * positionCount code.factors)
        { source := { inner := state } }
        (source.watched.throwCode rules code { inner := state }) :=
    answers.throwProduct_within dice sixesEnd 1 reached
  constructor
  · have asked := within.asked
    rw [← evaluate_left, List.length_nil, Nat.zero_add] at asked
    exact asked
  · rw [← alike.outcome, evaluate_outcome]
    have allowed := within.allowed
    revert allowed
    cases (source.watched.throwCode rules code { inner := state }).outcome with
    | error fault =>
        intro allowed
        obtain ⟨die, face, dice, given, notAccepted, rfl⟩ := allowed fault rfl
        exact .inr ⟨die, face, dice, given, notAccepted, rfl⟩
    | ok product =>
        exact fun _ => .inl ⟨_, rfl⟩

end Answers

/-- Where every die is answered with one of its faces, and all sides can be written, a roll succeeds. -/
theorem Answers.evaluate_total
    (answers : source.Answers (fun die => 0 < die) HasFace Reached)
    (rules : Rules)
    (code : DiceCode)
    {state : σ}
    (sides : ∀ factor ∈ code.factors, 0 < factor.sides ∧ Text.Writable factor.sides)
    (sixesEnd :
      ∀ factor ∈ code.factors,
        (rules.forCode code).position factor.sides = .exploding →
          source.SixesEnd Reached reach)
    (reached : Reached state) :
    ∃ total, (source.evaluate rules code state).outcome = .ok total := by
  have written : source.Answers (fun die => 0 < die ∧ Text.Writable die) HasFace Reached :=
    answers.narrow (by decide) And.left
  refine (written.evaluate_within rules code sides sixesEnd reached).2.resolve_right ?_
  rintro ⟨die, face, ⟨-, writable⟩, hasFace, notAccepted, -⟩
  exact notAccepted ((accepted_iff writable).mpr hasFace)

end Source

end

end Tabletop
