import Tabletop.Proofs.Throws.Bounded
import Tabletop.Proofs.Throws.Script

namespace Tabletop

/-!
# Sources that go round in a circle

A circle of faces, and a generator on a circle of numbers, show all they have
within one round. If one of the faces is no six, a chain of sixes ends within one
round from wherever the dice before it have left the source: `evaluate_ends`.
-/

/-- Every place of a circle is reached within one round. -/
theorem exists_round
    (given : Nat)
    {place size : Nat}
    (inside : place < size) :
    ∃ more, more < size ∧ (given + more) % size = place := by
  have nonempty : 0 < size := Nat.zero_lt_of_lt inside
  have begun : given % size < size := Nat.mod_lt given nonempty
  refine ⟨(place + (size - given % size)) % size, Nat.mod_lt _ nonempty, ?_⟩
  have rounds : given + (place + (size - given % size)) = place + size * (given / size + 1) := by
    have divided := Nat.div_add_mod given size
    rw [Nat.mul_add, Nat.mul_one]
    omega
  rw [Nat.add_mod_mod, rounds, Nat.add_mul_mod_self_left, Nat.mod_eq_of_lt inside]

namespace Source

variable {σ : Type} {source : Source σ}

/-- A circle with a place that shows no six shows another face within one round. -/
theorem otherWithin_round
    (At : Nat → σ → Prop)
    {place size : Nat}
    (inside : place < size)
    (step :
      ∀ {given : Nat} {state : σ},
        At given state → (source.draw 6 state).1 = .ok 6 →
          given % size ≠ place ∧ At (given + 1) (source.draw 6 state).2)
    {given : Nat}
    {state : σ}
    (stands : At given state) :
    source.OtherWithin size state := by
  obtain ⟨more, small, reaches⟩ := exists_round given inside
  have other : source.OtherWithin (more + 1) state := by
    clear small
    induction more generalizing given state with
    | zero =>
        exact fun six => absurd reaches (step stands six).1
    | succ more inductionHypothesis =>
        intro six
        refine inductionHypothesis (step stands six).2 ?_
        rw [← reaches]
        congr 1
        omega
  exact other.mono small

end Source

/-- Wells as a source whose chains of sixes may be longer than the bound of the wells. -/
def Well.patient (patience : Well → Nat) : Source Well where
  draw := draw
  streak := patience

theorem Well.patient_streak :
    patient streak = source :=
  rfl

section

variable {patience : Well → Nat} {faces : Array Int}

/-- A generator answers every die that has sides with one of its faces. -/
theorem generator_answers
    (patience : Well → Nat)
    (g : Generator) :
    (Well.patient patience).Answers (fun die => 0 < die) HasFace
      (fun well => ∃ later, well = .generator later ∧ later.entropy = g.entropy) where
  six := by decide
  answer := by
    rintro die _ sides ⟨later, rfl, entropy⟩
    have low : 0 ≤ (later.next : Int) % die := Int.emod_nonneg _ (Int.ne_of_gt sides)
    have high : (later.next : Int) % die < die := Int.emod_lt_of_pos _ sides
    let left : Generator := { later with given := later.given + 1, asked := die :: later.asked }
    refine ⟨1 + later.next % die, .generator left, ?_, ⟨left, rfl, entropy⟩,
      ⟨by omega, by omega⟩⟩
    simp only [Well.patient, Well.draw, Generator.draw, if_neg (Int.not_le.mpr sides), left]

theorem generator_sixesEnd
    {g : Generator}
    (patient : ∀ well, well.streak ≤ patience well)
    (other : ∃ number ∈ g.entropy, number % 6 ≠ 5) :
    (Well.patient patience).SixesEnd
      (fun well => ∃ later, well = .generator later ∧ later.entropy = g.entropy)
      g.entropy.size where
  other := by
    rintro _ ⟨later, rfl, entropy⟩
    obtain ⟨_, member, notSix⟩ := other
    obtain ⟨place, inside, rfl⟩ := Array.mem_iff_getElem.mp member
    refine Source.otherWithin_round
      (fun given well =>
        ∃ later, well = .generator later ∧ later.entropy = g.entropy ∧ later.given = given)
      inside ?_ ⟨later, rfl, entropy, rfl⟩
    rintro _ _ ⟨later, rfl, entropy, rfl⟩ six
    refine ⟨?_, _, rfl, entropy, rfl⟩
    intro there
    have next : later.next = g.entropy[place] := by
      simp [Generator.next, entropy, there, inside]
    have shown : 1 + (later.next : Int) % 6 = 6 := Except.ok.inj six
    rw [next] at shown
    omega
  enough := by
    rintro _ ⟨later, rfl, entropy⟩
    rw [← entropy]
    exact Nat.le_succ_of_le (patient (.generator later))

end

/-- The bound is met where both dice show a round of sixes. -/
example :
    let code : DiceCode := { factors := [{ count := 2 }], explode := true }
    Well.source.diceAsked {} code (.circle #[6, 6, 2] 0) = [6, 6, 6, 6, 6, 6] := by
  rfl

end Tabletop
