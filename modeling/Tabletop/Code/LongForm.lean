import Tabletop.Code.Basic
import Tabletop.Text.Numeral
import Tabletop.Text.Quoted

namespace Tabletop

/-!
# The long form of a dice code

The journal shows a code with every part named, defaults included, so that two
different codes are never shown alike.
-/

/-- A truth value as the long form spells it. -/
def longTruth : Bool → String
  | true => "True"
  | false => "False"

/-- A modifier with its operation in quotes. -/
def Modifier.longForm (m : Modifier) : String :=
  "Modifier(op=" ++ Text.quoted m.operation.name ++
    ", operand=" ++ Text.showInt m.operand ++ ")"

/-- A factor with its count, its sides and its modifier. -/
def Factor.longForm (f : Factor) : String :=
  "Factor(repeat=Repeat(number=" ++ Text.showInt f.count ++
    "), sides=" ++ Text.showInt f.sides ++
    ", modifier=" ++ f.modifier.longForm ++ ")"

/-- The long forms of the factors in parentheses; a single one is followed by a comma. -/
def factorsLongForm : List Factor → String
  | [f] => "(" ++ f.longForm ++ ",)"
  | factors => "(" ++ ", ".intercalate (factors.map Factor.longForm) ++ ")"

/-- A code with all its parts. -/
def DiceCode.longForm (code : DiceCode) : String :=
  "DieCode(factors=" ++ factorsLongForm code.factors ++
    ", directives=Directives(explode=" ++ longTruth code.explode ++ "))"

end Tabletop
