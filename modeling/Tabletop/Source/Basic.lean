import Tabletop.Text.Numeral

namespace Tabletop

/-!
# Sources of faces

A source is asked for one die at a time and answers with a face or refuses. It
may answer with any integer: whoever throws the dice checks the range.

Every source also knows how many sixes in a row it can show before it is clear
that it will show nothing else. A chain of exploding sixes that goes on for
longer never ends, so this number bounds the chain without cutting one short.
-/

/-- Why a source has no face for a die. -/
inductive Refusal where
  /-- All faces are handed out, and a die of so many sides is asked for. -/
  | exhausted (given : Nat) (sides : Int)
  /-- A face is to be chosen at random, and the die has none to choose from. -/
  | sideless (sides : Int)
  /-- There is no face, and no saying for which die: its sides have too many digits. -/
  | unwritable
  deriving Repr, DecidableEq, Inhabited

namespace Refusal

/--
What is said of a die for which there is no face, if its sides can be written. The
number of faces that were given is counted up one by one and always can.
-/
def forDie
    (sides : Int)
    (said : Int → Refusal) :
    Refusal :=
  if Text.Writable sides then said sides else unwritable

theorem forDie_of_writable
    {sides : Int}
    (writable : Text.Writable sides)
    (said : Int → Refusal) :
    forDie sides said = said sides :=
  if_pos writable

end Refusal

/-- A source of faces whose states are of the given type. -/
structure Source (σ : Type) where
  /-- The answer to being asked for a die of so many sides, and the state after it. -/
  draw : Int → σ → Except Refusal Int × σ
  /-- More sixes in a row than this mean that sixes go on for ever. -/
  streak : σ → Nat

/-- A state together with the sides and the face of each draw that was answered. -/
structure Recorded (σ : Type) where
  inner : σ
  rolls : Array (Int × Int) := #[]

namespace Source

variable {σ : Type}

/-- The same source with every answered draw written down, in order. -/
def recorded (source : Source σ) : Source (Recorded σ) where
  draw sides state :=
    match source.draw sides state.inner with
    | (.ok face, inner) =>
        (.ok face, { inner := inner, rolls := state.rolls.push (sides, face) })
    | (.error refusal, inner) =>
        (.error refusal, { state with inner := inner })
  streak state := source.streak state.inner

section

variable (source : Source σ) (sides : Int) (state : Recorded σ)

@[simp] theorem recorded_answer :
    (source.recorded.draw sides state).1 = (source.draw sides state.inner).1 := by
  simp only [recorded]
  rcases source.draw sides state.inner with ⟨refusal | face, inner⟩ <;> rfl

@[simp] theorem recorded_inner :
    (source.recorded.draw sides state).2.inner = (source.draw sides state.inner).2 := by
  simp only [recorded]
  rcases source.draw sides state.inner with ⟨refusal | face, inner⟩ <;> rfl

/-- Only answers are written down. -/
theorem recorded_rolls :
    (source.recorded.draw sides state).2.rolls =
      match (source.draw sides state.inner).1 with
      | .ok face => state.rolls.push (sides, face)
      | .error _ => state.rolls := by
  simp only [recorded]
  rcases source.draw sides state.inner with ⟨refusal | face, inner⟩ <;> rfl

end

end Source

end Tabletop
