import Tabletop.Code.Error
import Tabletop.Source.Basic

namespace Tabletop

/-!
# Why a roll fails

A roll fails where its text is no dice code, or where the source fails the one
who throws the dice.
-/

/-- What can go wrong while dice are thrown. -/
inductive Fault where
  /-- The source has no face for the die. -/
  | refused (refusal : Refusal)
  /-- The source answered with a face that the die does not have. -/
  | impossible (face sides : Int)
  /-- There is something to be said of a face or its die that has too many digits. -/
  | unwritable
  /-- A chain of exploding sixes has no end. -/
  | endless
  deriving Repr, DecidableEq, Inhabited

namespace Refusal

/--
The message of the refusal. The range of faces is written as its start, the
number after its end, and its size.
-/
def message : Refusal → String
  | exhausted given sides =>
      "scripted roller exhausted after " ++ Text.showInt given ++
        " values (asked for a d" ++ Text.showInt sides ++ ")"
  | sideless sides =>
      "empty range for randrange() (1, " ++ Text.showInt (sides + 1) ++ ", " ++
        Text.showInt sides ++ ")"
  | unwritable =>
      Text.unwritableMessage

end Refusal

namespace Fault

/-- The message of the fault. -/
def message : Fault → String
  | refused refusal =>
      refusal.message
  | impossible face sides =>
      "roller returned " ++ Text.showInt face ++ " for a d" ++ Text.showInt sides
  | unwritable =>
      Text.unwritableMessage
  | endless =>
      "the sixes never end"

end Fault

/-- Why a roll has no result. -/
inductive Failure where
  | misread (misread : Misread)
  | fault (fault : Fault)
  deriving Repr, DecidableEq, Inhabited

namespace Failure

/-- The message of the failure. -/
def message : Failure → String
  | misread m => m.message
  | fault f => f.message

end Failure

end Tabletop
