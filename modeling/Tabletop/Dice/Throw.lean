import Tabletop.Code.Basic
import Tabletop.Dice.Fault
import Tabletop.Source.Basic

namespace Tabletop

/-!
# Throwing dice

A code is a list of positions, each worth the outcome of one die, of a chain of
exploding sixes or of a pair of dice read as tens and units. Throwing a position
asks a source for faces until the position is settled or the source fails. What
was drawn before a failure stays drawn.
-/

/-- The rules of a roll: whether sixes explode, and whether a die of 66 sides is one die. -/
structure Rules where
  explode : Bool := false
  whole66 : Bool := false
  deriving Repr, DecidableEq, Inhabited

namespace Rules

/-- The rules for a given code, whose own `E` makes sixes explode as well. -/
def forCode
    (rules : Rules)
    (code : DiceCode) :
    Rules :=
  { rules with explode := rules.explode || code.explode }

end Rules

/-- The number of sides of the die whose sixes can explode. -/
def explodingSides : Int := 6

/-- The number of sides that stands for two six-sided dice. -/
def pairedSides : Int := 66

/-- How one position is thrown. -/
inductive Position where
  | single (sides : Int)
  | exploding
  | pair
  deriving Repr, DecidableEq, Inhabited

namespace Rules

/-- How a die of so many sides is thrown under the rules. A pair never explodes. -/
def position
    (rules : Rules)
    (sides : Int) :
    Position :=
  if sides = pairedSides ∧ rules.whole66 = false then .pair
  else if rules.explode = true ∧ sides = explodingSides then .exploding
  else .single sides

end Rules

/-- A state of the source, and the faces accepted so far, in order. -/
structure Hand (σ : Type) where
  source : σ
  faces : Array Int := #[]

/-- What throwing came to, and the hand it leaves. -/
structure Thrown (σ α : Type) where
  outcome : Except Fault α
  hand : Hand σ

namespace Thrown

variable {σ α β : Type}

/-- Goes on with the value and the hand, unless throwing has failed. -/
@[inline] def andThen
    (thrown : Thrown σ α)
    (next : α → Hand σ → Thrown σ β) :
    Thrown σ β :=
  match thrown with
  | ⟨.ok value, hand⟩ => next value hand
  | ⟨.error fault, hand⟩ => ⟨.error fault, hand⟩

/-- The same hand with another value. -/
@[inline] def map
    (f : α → β)
    (thrown : Thrown σ α) :
    Thrown σ β :=
  thrown.andThen fun value hand => ⟨.ok (f value), hand⟩

@[simp] theorem andThen_ok
    (value : α)
    (hand : Hand σ)
    (next : α → Hand σ → Thrown σ β) :
    (Thrown.mk (.ok value) hand).andThen next = next value hand :=
  rfl

@[simp] theorem andThen_error
    (fault : Fault)
    (hand : Hand σ)
    (next : α → Hand σ → Thrown σ β) :
    (Thrown.mk (.error fault) hand).andThen next = ⟨.error fault, hand⟩ :=
  rfl

theorem andThen_assoc
    {γ : Type}
    (thrown : Thrown σ α)
    (next : α → Hand σ → Thrown σ β)
    (last : β → Hand σ → Thrown σ γ) :
    (thrown.andThen next).andThen last =
      thrown.andThen fun value hand => (next value hand).andThen last := by
  rcases thrown with ⟨_ | value, hand⟩ <;> rfl

@[simp] theorem map_outcome
    (f : α → β)
    (thrown : Thrown σ α) :
    (thrown.map f).outcome = thrown.outcome.map f := by
  rcases thrown with ⟨_ | value, hand⟩ <;> rfl

@[simp] theorem map_hand
    (f : α → β)
    (thrown : Thrown σ α) :
    (thrown.map f).hand = thrown.hand := by
  rcases thrown with ⟨_ | value, hand⟩ <;> rfl

end Thrown

/-- Whether a face is accepted for a die of so many sides: the die has it, and it can be told. -/
def Accepted (face sides : Int) : Prop :=
  (1 ≤ face ∧ face ≤ sides) ∧ Text.Writable face

instance (face sides : Int) : Decidable (Accepted face sides) :=
  inferInstanceAs (Decidable (_ ∧ _))

/--
The fault of a face that is not accepted. What is said of an impossible face names
it and its die; a face that cannot be told is no face of a die that can be named.
-/
def Fault.rejected (face sides : Int) : Fault :=
  if Text.Writable face ∧ Text.Writable sides then .impossible face sides else .unwritable

theorem Fault.rejected_cases (face sides : Int) :
    rejected face sides = .impossible face sides ∨ rejected face sides = .unwritable := by
  unfold rejected
  split
  · exact .inl rfl
  · exact .inr rfl

/-- A die whose sides can be written has no face that cannot. -/
theorem accepted_iff
    {face sides : Int}
    (writable : Text.Writable sides) :
    Accepted face sides ↔ 1 ≤ face ∧ face ≤ sides := by
  constructor
  · exact And.left
  · intro inRange
    exact ⟨inRange, writable.mono (by omega)⟩

/-- The dice that explode and those of a pair have six sides; each of their faces can be told. -/
theorem accepted_six_iff {face : Int} :
    Accepted face 6 ↔ 1 ≤ face ∧ face ≤ 6 :=
  accepted_iff (by decide)

namespace Source

variable {σ : Type}

/-- Draws one face and accepts it if the die has it and it can be told. -/
def face
    (source : Source σ)
    (sides : Int)
    (hand : Hand σ) :
    Thrown σ Int :=
  match source.draw sides hand.source with
  | (.error refusal, state) =>
      ⟨.error (.refused refusal), { hand with source := state }⟩
  | (.ok face, state) =>
      if Accepted face sides then
        ⟨.ok face, { source := state, faces := hand.faces.push face }⟩
      else
        ⟨.error (.rejected face sides), { hand with source := state }⟩

/-- Draws faces of a six-sided die and adds them up until one is not a six, at most so many. -/
def chain (source : Source σ) : Nat → Int → Hand σ → Thrown σ Int
  | 0, _, hand =>
      ⟨.error .endless, hand⟩
  | limit + 1, total, hand =>
      (source.face explodingSides hand).andThen fun face hand =>
        if face = explodingSides then
          source.chain limit (total + face) hand
        else
          ⟨.ok (total + face), hand⟩

/-- Throws one position. -/
def throw
    (source : Source σ)
    (position : Position)
    (hand : Hand σ) :
    Thrown σ Int :=
  match position with
  | .single sides =>
      source.face sides hand
  | .exploding =>
      source.chain (source.streak hand.source + 1) 0 hand
  | .pair =>
      (source.face 6 hand).andThen fun tens hand =>
        (source.face 6 hand).andThen fun units hand =>
          ⟨.ok (tens * 10 + units), hand⟩

/-- Throws a position so many times and adds the outcomes to a total. -/
def throwSum
    (source : Source σ)
    (position : Position) :
    Nat → Int → Hand σ → Thrown σ Int
  | 0, total, hand =>
      ⟨.ok total, hand⟩
  | count + 1, total, hand =>
      (source.throw position hand).andThen fun worth hand =>
        source.throwSum position count (total + worth) hand

/-- Throws all dice of a factor and modifies their sum. A count of zero or less throws none. -/
def throwFactor
    (source : Source σ)
    (rules : Rules)
    (factor : Factor)
    (hand : Hand σ) :
    Thrown σ Int :=
  (source.throwSum (rules.position factor.sides) factor.count.toNat 0 hand).map
    factor.modifier.apply

/-- Throws the factors from left to right and multiplies a product by each of them. -/
def throwProduct
    (source : Source σ)
    (rules : Rules) :
    List Factor → Int → Hand σ → Thrown σ Int
  | [], product, hand =>
      ⟨.ok product, hand⟩
  | factor :: rest, product, hand =>
      (source.throwFactor rules factor hand).andThen fun value hand =>
        source.throwProduct rules rest (product * value) hand

end Source

end Tabletop
