namespace Tabletop

/-!
# Dice codes

A dice code such as `2d6+3xd66E` is a product of factors. Each factor throws
dice of one kind, adds them up and modifies the sum. The values here are plain
data: any integer is admitted, also where no text writes such a code.
-/

/-- What a modifier does with its operand. -/
inductive Operation where
  | keep
  | add
  | subtract
  | unknown (name : String)
  deriving Repr, DecidableEq, Inhabited

namespace Operation

/-- The name under which an operation is recorded. -/
def name : Operation → String
  | keep => "none"
  | add => "plus"
  | subtract => "minus"
  | unknown name => name

/-- The operation of a given name; a name that is not one of the three is kept as it is. -/
def ofName (name : String) : Operation :=
  if name = "none" then keep
  else if name = "plus" then add
  else if name = "minus" then subtract
  else unknown name

/-- A known operation is found under its name. -/
theorem ofName_name
    {operation : Operation}
    (known : operation ∈ [keep, add, subtract]) :
    ofName operation.name = operation := by
  revert operation
  decide

/-- Every name is the name of the operation that it stands for. -/
theorem name_ofName (s : String) : (ofName s).name = s := by
  unfold ofName
  split
  · next h => exact h.symm
  · split
    · next h => exact h.symm
    · split
      · next h => exact h.symm
      · rfl

end Operation

/-- A change made to a sum of dice. -/
structure Modifier where
  operation : Operation := .keep
  operand : Int := 0
  deriving Repr, DecidableEq, Inhabited

namespace Modifier

/-- The sum after the change; an operation without a meaning leaves it as it is. -/
def apply (m : Modifier) (sum : Int) : Int :=
  match m.operation with
  | .add => sum + m.operand
  | .subtract => sum - m.operand
  | .keep | .unknown _ => sum

/-- The number that a modifier stands for: its operand behind a plus, the opposite behind a minus. -/
def shift (m : Modifier) : Int :=
  match m.operation with
  | .add => m.operand
  | .subtract => -m.operand
  | .keep | .unknown _ => 0

/-- A modifier adds the number that it stands for. -/
theorem apply_eq_add_shift (m : Modifier) (sum : Int) :
    m.apply sum = sum + m.shift := by
  unfold shift apply
  split <;> omega

end Modifier

/-- A number of equal dice whose modified sum is one factor of the result. -/
structure Factor where
  count : Int := 1
  sides : Int := 6
  modifier : Modifier := {}
  deriving Repr, DecidableEq, Inhabited

/-- A product of factors, and whether sixes explode in all of them. -/
structure DiceCode where
  factors : List Factor
  explode : Bool := false
  deriving Repr, DecidableEq, Inhabited

/-- The largest number that may be written in a dice code. -/
def greatestNumber : Nat := 255

end Tabletop
