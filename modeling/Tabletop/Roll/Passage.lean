import Tabletop.Dice.Throw
import Tabletop.Journal
import Tabletop.Narration

namespace Tabletop

/-!
# What a step leaves behind

Rolling has a result or a failure, makes remarks for people and entries for the
journal, and leaves the source in a new state. Whoever called decides what
becomes of the remarks and the entries.
-/

/-- The outcome of a step and its effects. -/
structure Passage (σ α : Type) where
  outcome : Except Failure α
  remarks : List Remark := []
  entries : List Entry := []
  left : σ

/-- The remark on one accepted face. -/
def Remark.face (face : Int) : Remark :=
  .verbose ("Rolled: " ++ Text.showInt face)

/-- What throwing dice leaves behind: every accepted face is remarked on, in order. -/
def Thrown.passage
    {σ α : Type}
    (thrown : Thrown σ α) :
    Passage σ α where
  outcome := thrown.outcome.mapError Failure.fault
  remarks := thrown.hand.faces.toList.map Remark.face
  left := thrown.hand.source

namespace Passage

variable {σ τ α β : Type}

/-- A step that fails at once and has no effect. -/
def failed
    (failure : Failure)
    (state : σ) :
    Passage σ α where
  outcome := .error failure
  left := state

/-- The same effects with another value. -/
def map
    (f : α → β)
    (passage : Passage σ α) :
    Passage σ β where
  outcome := passage.outcome.map f
  remarks := passage.remarks
  entries := passage.entries
  left := passage.left

/-- The same step seen in another state. -/
def mapLeft
    (f : σ → τ)
    (passage : Passage σ α) :
    Passage τ α where
  outcome := passage.outcome
  remarks := passage.remarks
  entries := passage.entries
  left := f passage.left

/-- The same step after an entry was made. -/
def afterEntry
    (entry : Entry)
    (passage : Passage σ α) :
    Passage σ α :=
  { passage with entries := entry :: passage.entries }

/-- The same step with nobody told about its faces. -/
def unremarked (passage : Passage σ α) : Passage σ α :=
  { passage with remarks := [] }

end Passage

end Tabletop
