import Tabletop.Code.LongForm
import Tabletop.Code.Reader
import Tabletop.Dice.Word16
import Tabletop.Roll.Passage

namespace Tabletop

/-!
# Rolling a dice code

The exact result of a code is the product of its factors; the result that is
given is that product as a signed 16-bit number, and the journal is warned where
the two differ. A text is read in full before anything is drawn, so a text that
is no dice code leaves the source as it was.
-/

/--
The warning about an exact result that is no signed 16-bit number. The entry is made
in any case and tells both numbers; a writer that spells it out has no numeral for an
exact result of more than `digitLimit` digits.
-/
def wrapEntries (product : Int) : List Entry :=
  if narrow product = product then []
  else
    [{ channel := Channel.thrower
       severity := Severity.warning
       message := "result " ++ Text.showInt product ++ " does not fit in 16 bits, wrapped to " ++
        Text.showInt (narrow product) }]

/-- The entry about a text that was read in full. -/
def readEntry
    (text : String)
    (code : DiceCode) :
    Entry where
  channel := Channel.reader
  severity := Severity.debug
  message := "parsed " ++ Text.quoted text ++ " as " ++ code.longForm

namespace Source

variable {σ : Type}

/-- Throws all dice of a code; the outcome is the exact product. -/
def throwCode
    (source : Source σ)
    (rules : Rules)
    (code : DiceCode)
    (state : σ) :
    Thrown σ Int :=
  source.throwProduct (rules.forCode code) code.factors 1 { source := state }

/-- Rolls a code and narrows the result. -/
def evaluate
    (source : Source σ)
    (rules : Rules)
    (code : DiceCode)
    (state : σ) :
    Passage σ Int :=
  let thrown := source.throwCode rules code state
  let passage := thrown.passage.map narrow
  match thrown.outcome with
  | .ok product => { passage with entries := wrapEntries product }
  | .error _ => passage

theorem evaluate_outcome
    (source : Source σ)
    (rules : Rules)
    (code : DiceCode)
    (state : σ) :
    (source.evaluate rules code state).outcome =
      ((source.throwCode rules code state).outcome.mapError Failure.fault).map narrow := by
  unfold evaluate
  rcases source.throwCode rules code state with ⟨fault | product, hand⟩ <;> rfl

theorem evaluate_left
    (source : Source σ)
    (rules : Rules)
    (code : DiceCode)
    (state : σ) :
    (source.evaluate rules code state).left =
      (source.throwCode rules code state).hand.source := by
  unfold evaluate
  rcases source.throwCode rules code state with ⟨fault | product, hand⟩ <;> rfl

theorem evaluate_remarks
    (source : Source σ)
    (rules : Rules)
    (code : DiceCode)
    (state : σ) :
    (source.evaluate rules code state).remarks =
      (source.throwCode rules code state).hand.faces.toList.map Remark.face := by
  unfold evaluate
  rcases source.throwCode rules code state with ⟨fault | product, hand⟩ <;> rfl

/-- Reads a text as a code and rolls it. -/
def rollText
    (source : Source σ)
    (rules : Rules)
    (text : String)
    (state : σ) :
    Passage σ Int :=
  match DiceCode.read? text with
  | .error misread =>
      .failed (.misread misread) state
  | .ok code =>
      (source.evaluate rules code state).afterEntry (readEntry text code)

theorem rollText_of_read
    {source : Source σ}
    {rules : Rules}
    {text : String}
    {code : DiceCode}
    {state : σ}
    (read : DiceCode.read? text = .ok code) :
    source.rollText rules text state =
      (source.evaluate rules code state).afterEntry (readEntry text code) := by
  unfold rollText
  rw [read]

end Source

end Tabletop
