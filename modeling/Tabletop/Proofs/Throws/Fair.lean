import Tabletop.Proofs.Throws.Answers
import Tabletop.Proofs.Throws.Rounds

namespace Tabletop

/-!
# Fair sources

A source is fair from a state on if it answers every die with one of its faces, now
and later. Whatever faces settle a code, a fair source draws just these: a generator
whose numbers are one less than the faces, since each face is one of the die that is
open when it is drawn (`throwCode_loaded`).
-/

/-- From the state on, the source answers every die that has sides with one of its faces. -/
def Source.Fair
    {σ : Type}
    (source : Source σ)
    (state : σ) :
    Prop :=
  ∃ Reached : σ → Prop,
    Reached state ∧ source.Answers (fun die => 0 < die) HasFace Reached

theorem generator_fair (g : Generator) :
    Well.source.Fair (.generator g) := by
  rw [← Well.patient_streak]
  exact ⟨_, ⟨g, rfl, rfl⟩, generator_answers Well.streak g⟩

/-- A generator of the operating system whose numbers stand for the faces, and then for ones. -/
def Generator.loaded (faces : List Int) : Generator :=
  .system ((faces.map fun face : Int => (face - 1).toNat) ++ [0]).toArray

theorem Generator.loaded_other (faces : List Int) :
    ∃ number ∈ (loaded faces).entropy, number % 6 ≠ 5 :=
  ⟨0, by simp [loaded, system], by decide⟩

theorem Generator.next_loaded
    {g : Generator}
    {before rest : List Int}
    {face : Int}
    (entropy : g.entropy = (loaded (before ++ face :: rest)).entropy)
    (given : g.given = before.length) :
    g.next = (face - 1).toNat := by
  have inside : before.length % (before.length + (rest.length + 1 + 1)) = before.length :=
    Nat.mod_eq_of_lt (by omega)
  simp [next, entropy, given, loaded, system, inside]

section

variable {rules : Rules} {code : DiceCode} {faces : List Int} {product die : Int}

/-- Faces that settle a code leave no die open. -/
theorem CodeSettled.not_open
    (settled : CodeSettled rules code faces product)
    (opened : CodeOpen rules code faces die) :
    False := by
  have rolled := (scriptRoll_settled settled []).1
  rw [List.append_nil, (scriptRoll_exhausted opened).1] at rolled
  cases rolled

/-- Among faces that settle a code, each is accepted for the die that those before it leave open. -/
theorem CodeSettled.accepted
    {before rest : List Int}
    {face : Int}
    (settled : CodeSettled rules code (before ++ face :: rest) product)
    (opened : CodeOpen rules code before die) :
    Accepted face die := by
  by_contra notAccepted
  have rolled := (scriptRoll_settled settled []).1
  rw [List.append_nil, (scriptRoll_rejected opened notAccepted).1] at rolled
  cases rolled

/-- Faces that begin with others which settle the code as well are the same. -/
theorem CodeSettled.eq_of_prefix
    {others : List Int}
    {worth : Int}
    (settled : CodeSettled rules code faces product)
    (also : CodeSettled rules code others worth)
    (front : others <+: faces) :
    others = faces ∧ worth = product := by
  obtain ⟨rest, shape⟩ := front
  have whole : others ++ rest = faces ++ [] := by
    rw [shape, List.append_nil]
  have same := (FactorsSettled.gives also 1).unique (FactorsSettled.gives settled 1) whole
  rw [Int.one_mul, Int.one_mul] at same
  exact same

/-- As long as a code is open, a generator that is loaded with faces that settle it draws them. -/
theorem Drawn.loaded_prefix
    {rolls : List (Int × Int)}
    {left : Well}
    (settled : CodeSettled rules code faces product)
    (drawn :
      Drawn Well.source (CodeOpen rules code) (.generator (.loaded faces)) rolls left) :
    rolls.map Prod.snd <+: faces ∧
      ∃ later,
        left = .generator later ∧
          later.entropy = (Generator.loaded faces).entropy ∧ later.given = rolls.length := by
  induction drawn with
  | none =>
      exact ⟨List.nil_prefix, _, rfl, rfl, rfl⟩
  | @next rolls _ left die face drawn opened answer inductionHypothesis =>
      obtain ⟨⟨tail, rfl⟩, later, rfl, entropy, given⟩ := inductionHypothesis
      cases tail with
      | nil =>
          rw [List.append_nil] at settled
          exact (settled.not_open opened).elim
      | cons wanted rest =>
          obtain ⟨⟨low, high⟩, -⟩ := settled.accepted opened
          rw [← List.length_map Prod.snd] at given
          have sides : ¬ die ≤ 0 := by
            omega
          have number : ((later.next : Nat) : Int) = wanted - 1 := by
            rw [Generator.next_loaded entropy given]
            omega
          have shown : 1 + (later.next : Int) % die = wanted := by
            rw [number, Int.emod_eq_of_lt (by omega) (by omega)]
            omega
          simp only [Well.source, Well.draw, Generator.draw, if_neg sides, shown,
            Prod.mk.injEq, Except.ok.injEq] at answer
          obtain ⟨rfl, rfl⟩ := answer
          refine ⟨⟨rest, by simp⟩, _, rfl, entropy, ?_⟩
          rw [List.length_append, given, List.length_map]
          rfl

/-- What such a generator draws for an open die is accepted. -/
theorem Drawn.loaded_accepted
    {rolls : List (Int × Int)}
    {between left : Well}
    {face : Int}
    (settled : CodeSettled rules code faces product)
    (drawn :
      Drawn Well.source (CodeOpen rules code) (.generator (.loaded faces)) rolls between)
    (opened : CodeOpen rules code (rolls.map Prod.snd) die)
    (answer : Well.source.draw die between = (.ok face, left)) :
    Accepted face die := by
  obtain ⟨⟨rest, shape⟩, -⟩ := Drawn.loaded_prefix settled (.next drawn opened answer)
  have whole : faces = rolls.map Prod.snd ++ face :: rest := by
    simp [← shape]
  rw [whole] at settled
  exact settled.accepted opened

/-- A generator that is loaded with faces that settle a code fails for no die of the code. -/
theorem not_breaks_loaded
    {rolls : List (Int × Int)}
    {between left : Well}
    {fault : Fault}
    (sides : ∀ factor ∈ code.factors, 0 < factor.sides)
    (settled : CodeSettled rules code faces product)
    (drawn :
      Drawn Well.source (CodeOpen rules code) (.generator (.loaded faces)) rolls between)
    (opened : CodeOpen rules code (rolls.map Prod.snd) die)
    (failed :
      (Well.source.throwCode rules code (.generator (.loaded faces))).outcome = .error fault) :
    ¬ Breaks Well.source die between fault left := by
  have patient : ∀ well : Well, well.streak ≤ well.streak :=
    fun _ => Nat.le_refl _
  have sixesEnd := generator_sixesEnd patient (Generator.loaded_other faces)
  have rolled :=
    ((generator_answers Well.streak (.loaded faces)).evaluate_within rules code sides
      (fun _ _ _ => sixesEnd) ⟨_, rfl, rfl⟩).2
  rw [Well.patient_streak, Source.evaluate_outcome, failed] at rolled
  obtain ⟨_, ⟨⟩⟩ | ⟨sides, shown, -, -, -, same⟩ := rolled
  -- The source answers every die, and its sixes end; so the fault is that of a face.
  have faceFault : fault = .rejected shown sides := Failure.fault.inj (Except.error.inj same)
  intro breaks
  cases breaks with
  | refused answer =>
      rcases Fault.rejected_cases shown sides with shape | shape <;> cases faceFault.trans shape
  | endless =>
      rcases Fault.rejected_cases shown sides with shape | shape <;> cases faceFault.trans shape
  | rejected answer notAccepted =>
      exact notAccepted (drawn.loaded_accepted settled opened answer)

/-- A generator that is loaded with faces that settle a code throws the code with these faces. -/
theorem throwCode_loaded
    (sides : ∀ factor ∈ code.factors, 0 < factor.sides)
    (settled : CodeSettled rules code faces product) :
    (Well.source.throwCode rules code (.generator (.loaded faces))).outcome = .ok product := by
  cases thrown : (Well.source.throwCode rules code (.generator (.loaded faces))).outcome with
  | error fault =>
      obtain ⟨rolls, between, left, die, drawn, opened, breaks⟩ := throwCode_broken thrown
      exact absurd breaks (not_breaks_loaded sides settled drawn opened thrown)
  | ok worth =>
      obtain ⟨rolls, drawn, also⟩ := throwCode_settled thrown
      have front := (drawn.loaded_prefix settled).1
      rw [(settled.eq_of_prefix also front).2]

end

end Tabletop
