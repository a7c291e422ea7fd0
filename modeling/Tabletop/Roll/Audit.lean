import Tabletop.Code.Writer
import Tabletop.Roll.Evaluate

namespace Tabletop

/-!
# Audits

An audit lists every die of a roll next to its result. The source is recorded
while the code is rolled, so the audit holds the draws of this roll alone.
-/

/-- A roll with everything needed to check it. -/
structure Audit where
  input : String
  normalized : String
  explode : Bool
  whole66 : Bool
  source : String
  rolls : List (Int × Int)
  total : Int
  deriving Repr, DecidableEq, Inhabited

namespace Audit

/-- The roll in one line; a roll without dice has no list of faces. -/
def explanation (audit : Audit) : String :=
  let faces := ", ".intercalate (audit.rolls.map fun roll => Text.showInt roll.2)
  let drawn := if audit.rolls.isEmpty then "" else ": rolls [" ++ faces ++ "]"
  audit.normalized ++ drawn ++ " => " ++ Text.showInt audit.total

end Audit

namespace Source

variable {σ : Type}

/-- Rolls a code that a text was read as, and lists its draws. -/
def auditCode
    (source : Source σ)
    (title : String)
    (rules : Rules)
    (text : String)
    (code : DiceCode)
    (state : σ) :
    Passage σ Audit :=
  let passage := source.recorded.evaluate rules code { inner := state }
  let audit (total : Int) : Audit :=
    { input := text
      normalized := code.text
      explode := (rules.forCode code).explode
      whole66 := rules.whole66
      source := title
      rolls := passage.left.rolls.toList
      total := total }
  ((passage.map audit).mapLeft Recorded.inner).unremarked.afterEntry (readEntry text code)

/-- Reads a text as a code, rolls it and lists its draws. -/
def auditText
    (source : Source σ)
    (title : String)
    (rules : Rules)
    (text : String)
    (state : σ) :
    Passage σ Audit :=
  match DiceCode.read? text with
  | .error misread =>
      .failed (.misread misread) state
  | .ok code =>
      source.auditCode title rules text code state

end Source

end Tabletop
