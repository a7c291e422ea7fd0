import Tabletop.Proofs.Throws.Alike
import Tabletop.Proofs.Throws.Answers

namespace Tabletop

/-!
# Logs of throws

A log holds every die that a source was asked for, each with its answer, refusals
included. A source cannot be told from itself with a log (`Source.alike_logged`).
The log of a throw that comes to a value holds the faces that settle it
(`Ends.log_settled`); the log of a throw that fails goes as far as the die for
which the source failed, and no further (`Ends.log_broken`).
-/

/-- A state together with every die that was asked for and the answer to it, in order. -/
structure Logged (σ : Type) where
  inner : σ
  log : List (Int × Except Refusal Int) := []

namespace Source

variable {σ : Type}

/-- The same source with every answer written down, refusals included. -/
def logged (source : Source σ) : Source (Logged σ) where
  draw sides state :=
    ((source.draw sides state.inner).1,
      { inner := (source.draw sides state.inner).2
        log := state.log ++ [(sides, (source.draw sides state.inner).1)] })
  streak state := source.streak state.inner

/-- A source cannot be told from itself with a log. -/
theorem alike_logged (source : Source σ) :
    source.logged.Alike source fun logged state => logged.inner = state where
  answer sides logged state related := by
    rw [← related]
    rfl
  left sides logged state related := by
    rw [← related]
    rfl
  streak related := congrArg source.streak related

end Source

/-- The lines of a log about dice that were answered. -/
def answeredLines (rolls : List (Int × Int)) : List (Int × Except Refusal Int) :=
  rolls.map fun (die, face) => (die, .ok face)

/-- Rolls of which each is of the die that the faces before it leave open. -/
inductive InOrder (Open : List Int → Int → Prop) : List (Int × Int) → Prop where
  | none :
      InOrder Open []
  | next
      {rolls : List (Int × Int)}
      {die face : Int}
      (inOrder : InOrder Open rolls)
      (opened : Open (rolls.map Prod.snd) die) :
      InOrder Open (rolls ++ [(die, face)])

/-- Where no other die is ever open, all rolls are of that die. -/
theorem InOrder.eq_map
    {Open : List Int → Int → Prop}
    {rolls : List (Int × Int)}
    {die : Int}
    (inOrder : InOrder Open rolls)
    (only : ∀ {faces other}, Open faces other → other = die) :
    rolls = (rolls.map Prod.snd).map fun face => (die, face) := by
  induction inOrder with
  | none =>
      rfl
  | @next rolls other face inOrder opened inductionHypothesis =>
      rw [List.map_append, List.map_append, ← inductionHypothesis, only opened]
      rfl

/--
The log of a throw that fails: rolls in their order, and then the die that they
leave open, for which the source fails.
-/
inductive BreaksOff
    (Open : List Int → Int → Prop) :
    List (Int × Except Refusal Int) → Fault → Prop where
  | refused
      {rolls : List (Int × Int)}
      {die : Int}
      {refusal : Refusal}
      (inOrder : InOrder Open rolls)
      (opened : Open (rolls.map Prod.snd) die) :
      BreaksOff Open (answeredLines rolls ++ [(die, .error refusal)]) (.refused refusal)
  | impossible
      {rolls : List (Int × Int)}
      {die face : Int}
      (inOrder : InOrder Open rolls)
      (opened : Open (rolls.map Prod.snd) die)
      (outside : ¬ (1 ≤ face ∧ face ≤ die)) :
      BreaksOff Open (answeredLines rolls ++ [(die, .ok face)]) (.impossible face die)
  /-- The face or its die has too many digits to be named. -/
  | unwritable
      {rolls : List (Int × Int)}
      {die face : Int}
      (inOrder : InOrder Open rolls)
      (opened : Open (rolls.map Prod.snd) die)
      (notAccepted : ¬ Accepted face die)
      (tooLong : ¬ (Text.Writable face ∧ Text.Writable die)) :
      BreaksOff Open (answeredLines rolls ++ [(die, .ok face)]) .unwritable
  /-- No die is asked for any more where the sixes have no end. -/
  | endless
      {rolls : List (Int × Int)}
      {die : Int}
      (inOrder : InOrder Open rolls)
      (opened : Open (rolls.map Prod.snd) die) :
      BreaksOff Open (answeredLines rolls) .endless

theorem BreaksOff.rejected
    {Open : List Int → Int → Prop}
    {rolls : List (Int × Int)}
    {die face : Int}
    (inOrder : InOrder Open rolls)
    (opened : Open (rolls.map Prod.snd) die)
    (notAccepted : ¬ Accepted face die) :
    BreaksOff Open (answeredLines rolls ++ [(die, .ok face)]) (.rejected face die) := by
  unfold Fault.rejected
  split
  · next writable =>
      exact .impossible inOrder opened fun inRange => notAccepted ⟨inRange, writable.1⟩
  · next tooLong =>
      exact .unwritable inOrder opened notAccepted tooLong

section

variable {σ : Type} {source : Source σ} {Open Settled : List Int → Int → Prop}
variable {rolls : List (Int × Int)} {start left : Logged σ}

theorem Drawn.inOrder
    {τ : Type}
    {other : Source τ}
    {otherStart otherLeft : τ}
    (drawn : Drawn other Open otherStart rolls otherLeft) :
    InOrder Open rolls := by
  induction drawn with
  | none =>
      exact .none
  | next drawn opened answer inductionHypothesis =>
      exact .next inductionHypothesis opened

theorem Drawn.log_eq (drawn : Drawn source.logged Open start rolls left) :
    left.log = start.log ++ answeredLines rolls := by
  induction drawn with
  | none =>
      exact (List.append_nil _).symm
  | @next rolls state left die face drawn opened answer inductionHypothesis =>
      obtain ⟨answered, rfl⟩ := Prod.mk.inj answer
      simp [answered, inductionHypothesis, answeredLines]

variable {hand : Hand (Logged σ)} {thrown : Thrown (Logged σ) Int}

/-- The log of a throw with a value holds nothing but the faces that settle it, in their order. -/
theorem Ends.log_settled
    {value : Int}
    (ends : Ends source.logged Settled Open hand thrown)
    (outcome : thrown.outcome = .ok value) :
    ∃ rolls,
      InOrder Open rolls ∧
        Settled (rolls.map Prod.snd) value ∧
        thrown.hand.source.log = hand.source.log ++ answeredLines rolls := by
  cases ends with
  | settled drawn settled =>
      cases outcome
      exact ⟨_, drawn.inOrder, settled, drawn.log_eq⟩
  | broken drawn opened breaks =>
      cases outcome

/-- The log of a throw that fails breaks off at the die for which the source failed. -/
theorem Ends.log_broken
    {fault : Fault}
    (ends : Ends source.logged Settled Open hand thrown)
    (outcome : thrown.outcome = .error fault) :
    ∃ lines,
      BreaksOff Open lines fault ∧ thrown.hand.source.log = hand.source.log ++ lines := by
  cases ends with
  | settled drawn settled =>
      cases outcome
  | @broken rolls state left die _ drawn opened breaks =>
      cases outcome
      have inOrder := drawn.inOrder
      cases breaks with
      | refused answer =>
          obtain ⟨answered, rfl⟩ := Prod.mk.inj answer
          refine ⟨_, .refused inOrder opened, ?_⟩
          simp [answered, drawn.log_eq]
      | rejected answer notAccepted =>
          obtain ⟨answered, rfl⟩ := Prod.mk.inj answer
          refine ⟨_, .rejected inOrder opened notAccepted, ?_⟩
          simp [answered, drawn.log_eq]
      | endless =>
          exact ⟨_, .endless inOrder opened, drawn.log_eq⟩

end

end Tabletop
