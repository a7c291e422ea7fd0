import Tabletop.Code.Reader

namespace Tabletop

/-!
# Writing dice codes

The canonical text of a code leaves out a count of one and a modifier that does
nothing by its operation. It is written for every value, also for one that no
text stands for; `readsBack` tells whether reading gives the same code again.
-/

/-- The canonical text of a modifier; an operation without a sign is not written. -/
def Modifier.chars (m : Modifier) : List Char :=
  match m.operation with
  | .add => '+' :: Text.signedNumeral m.operand
  | .subtract => '-' :: Text.signedNumeral m.operand
  | .keep | .unknown _ => []

/-- The canonical text of a factor. -/
def Factor.chars (f : Factor) : List Char :=
  (if f.count = 1 then [] else Text.signedNumeral f.count) ++
    'd' :: (Text.signedNumeral f.sides ++ f.modifier.chars)

/-- The canonical texts of the factors, joined by `x`. -/
def factorChars : List Factor → List Char
  | [] => []
  | [f] => f.chars
  | f :: rest => f.chars ++ 'x' :: factorChars rest

namespace DiceCode

/-- The canonical text of a code as a list of characters. -/
def chars (code : DiceCode) : List Char :=
  factorChars code.factors ++ if code.explode then ['E'] else []

/-- The canonical text of a code. -/
def text (code : DiceCode) : String :=
  String.ofList code.chars

/-- Whether the canonical text reads as the code itself, or why it does not read. -/
def readsBack (code : DiceCode) : Except Misread Bool := do
  let again ← DiceCode.read? code.text
  .ok (again == code)

end DiceCode

end Tabletop
