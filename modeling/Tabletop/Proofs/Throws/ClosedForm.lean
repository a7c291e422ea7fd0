import Mathlib.Logic.ExistsUnique
import Tabletop.Proofs.Throws.Log

namespace Tabletop

/-!
# Chains of sixes in closed form

The total of a chain of exploding sixes says what was thrown: as many sixes as the
total holds, and behind them a last face, which is the remainder. So the totals of
chains are the positive numbers that six does not divide, and each of them has one
chain only (`chainSettled_iff`). The draws of a chain from any source are those of
its total, and one script alone is used up by a chain with a given total.
-/

/-- The faces of a chain with a total. -/
def chainFaces (total : Int) : List Int :=
  List.replicate (total / 6).toNat 6 ++ [total % 6]

theorem sum_chain
    (sixes : Nat)
    (last : Int) :
    (List.replicate sixes 6 ++ [last]).sum = 6 * sixes + last := by
  simp [Int.mul_comm]

/-- The faces of a chain are found from its total. -/
theorem chainFaces_sum
    (sixes : Nat)
    {last : Int}
    (lastRange : 1 ≤ last ∧ last ≤ 5) :
    chainFaces (List.replicate sixes 6 ++ [last]).sum = List.replicate sixes 6 ++ [last] := by
  have quotient : (6 * (sixes : Int) + last) / 6 = sixes := by
    omega
  have remainder : (6 * (sixes : Int) + last) % 6 = last := by
    omega
  rw [sum_chain, chainFaces, quotient, remainder, Int.toNat_natCast]

theorem sum_chainFaces
    {total : Int}
    (positive : 1 ≤ total) :
    (chainFaces total).sum = total := by
  rw [chainFaces, sum_chain]
  omega

section

variable {rules : Rules} {faces : List Int} {total : Int}

/-- Only the positive numbers that six does not divide are totals, each of a single chain. -/
theorem chainSettled_iff (explode : rules.explode = true) :
    PositionSettled rules explodingSides faces total ↔
      1 ≤ total ∧ total % 6 ≠ 0 ∧ faces = chainFaces total := by
  constructor
  · intro settled
    cases settled with
    | pair paired => exact absurd paired.1 (by decide)
    | single _ notExploding => exact absurd ⟨explode, rfl⟩ notExploding
    | @chain sixes last _ lastRange =>
        refine ⟨?_, ?_, (chainFaces_sum sixes lastRange).symm⟩ <;>
          rw [sum_chain] <;> omega
  · rintro ⟨positive, noMultiple, rfl⟩
    have lastRange : 1 ≤ total % 6 ∧ total % 6 ≤ 5 := by
      omega
    have settled : PositionSettled rules 6 (chainFaces total) (chainFaces total).sum :=
      .chain ⟨explode, rfl⟩ lastRange
    rwa [sum_chainFaces positive] at settled

end

/-- A chain asks for six-sided dice only. -/
theorem PositionOpen.die_of_exploding
    {rules : Rules}
    {faces : List Int}
    {die : Int}
    (explode : rules.explode = true)
    (opened : PositionOpen rules explodingSides faces die) :
    die = explodingSides := by
  cases opened with
  | tens paired => rfl
  | units paired => rfl
  | chain exploding => rfl
  | single _ notExploding => exact absurd ⟨explode, rfl⟩ notExploding

namespace Source

variable {σ : Type} (source : Source σ) (state : σ) {rules : Rules} {total : Int}

/-- The log of a chain that comes to a total holds the faces of the total and nothing else. -/
theorem log_of_chain
    (explode : rules.explode = true)
    (thrown :
      (source.throw (rules.position explodingSides) { source := state }).outcome = .ok total) :
    1 ≤ total ∧
      total % 6 ≠ 0 ∧
      (source.logged.throw (rules.position explodingSides)
          { source := { inner := state } }).hand.source.log =
        (chainFaces total).map fun face => (explodingSides, .ok face) := by
  have hands :
      Hand.Alike (fun logged state => logged.inner = state) #[]
        { source := { inner := state } : Hand (Logged σ) } { source := state } :=
    ⟨rfl, rfl⟩
  -- A source with a log throws as it does without, so that the log ends with the total, too.
  have alike := source.alike_logged.throw hands (rules.position explodingSides)
  have ends :=
    position_ends source.logged rules explodingSides { source := { inner := state } }
  obtain ⟨rolls, inOrder, settled, log⟩ := ends.log_settled (alike.outcome.trans thrown)
  obtain ⟨positive, noMultiple, faces⟩ := (chainSettled_iff explode).mp settled
  refine ⟨positive, noMultiple, ?_⟩
  rw [log, inOrder.eq_map (PositionOpen.die_of_exploding explode), faces, answeredLines,
    List.map_map]
  rfl

end Source

/-- Whether throwing a position comes to a value with a script, and takes all of it. -/
def UsesUp
    (position : Position)
    (script : List Int)
    (value : Int) :
    Prop :=
  let thrown := Well.source.throw position (scriptHand script 0 #[])
  thrown.outcome = .ok value ∧ thrown.hand.source = .script [] script.length

/-- What is used up for a position are the faces that settle it. -/
theorem usesUp_iff
    {rules : Rules}
    {sides value : Int}
    {script : List Int} :
    UsesUp (rules.position sides) script value ↔ PositionSettled rules sides script value := by
  constructor
  · rintro ⟨outcome, left⟩
    cases position_decided rules sides script with
    | @settled faces rest worth shape settled =>
        subst shape
        rw [settled.gives rest 0 #[]] at outcome left
        injection outcome with worthIsValue
        injection left with nothingLeft
        rw [nothingLeft, List.append_nil, ← worthIsValue]
        exact settled
    | @rejected faces rest face die shape opened notAccepted =>
        subst shape
        rw [opened.asks.rejected face rest 0 #[] notAccepted] at outcome
        cases outcome
    | exhausted opened =>
        rw [opened.asks.exhausted 0 #[]] at outcome
        cases outcome
  · intro settled
    have taken := settled.gives [] 0 #[]
    rw [List.append_nil, Nat.zero_add] at taken
    unfold UsesUp
    rw [taken]
    exact ⟨rfl, rfl⟩

/--
For every source, a chain with a total has drawn six-sided dice only: a six for each
six in the total, and then the remainder, which is not zero. For every positive number
that six does not divide there is one script that a chain with this total uses up.
-/
theorem explodingThrow_closedForm
    {σ : Type}
    (source : Source σ)
    (rules : Rules)
    (state : σ) :
    let position := { rules with explode := true }.position explodingSides
    (∀ total,
      (source.throw position { source := state }).outcome = .ok total →
        1 ≤ total ∧
          total % 6 ≠ 0 ∧
          (source.logged.throw position { source := { inner := state } }).hand.source.log =
            List.replicate (total / 6).toNat (6, .ok 6) ++ [(6, .ok (total % 6))]) ∧
      ∀ total : Int,
        1 ≤ total → total % 6 ≠ 0 → ∃! script, UsesUp position script total := by
  constructor
  · intro total thrown
    obtain ⟨positive, noMultiple, log⟩ := source.log_of_chain state rfl thrown
    refine ⟨positive, noMultiple, log.trans ?_⟩
    simp [chainFaces, explodingSides]
  · intro total positive noMultiple
    refine ⟨chainFaces total, ?_, ?_⟩
    · exact usesUp_iff.mpr ((chainSettled_iff rfl).mpr ⟨positive, noMultiple, rfl⟩)
    · intro script usedUp
      exact ((chainSettled_iff rfl).mp (usesUp_iff.mp usedUp)).2.2

/-- Two sixes and a three. -/
theorem explodingThrow_closedForm_fifteen :
    let position := Rules.position { explode := true } explodingSides
    let script : Well := .script [6, 6, 3, 4] 0
    (Well.source.throw position { source := script }).outcome = .ok 15 ∧
      (Well.source.logged.throw position { source := { inner := script } }).hand.source.log =
        [(6, .ok 6), (6, .ok 6), (6, .ok 3)] ∧
      (15 : Int) % 6 ≠ 0 ∧
      ∃! faces, UsesUp position faces 15 := by
  have closedForm := explodingThrow_closedForm Well.source {} (.script [6, 6, 3, 4] 0)
  have thrown :
      (Well.source.throw (Rules.position { explode := true } explodingSides)
        { source := .script [6, 6, 3, 4] 0 }).outcome = .ok 15 := by
    rfl
  exact ⟨thrown, (closedForm.1 15 thrown).2.2, by decide, closedForm.2 15 (by decide) (by decide)⟩

end Tabletop
