import Tabletop.Roll.Report
import Tabletop.Source.Rack

namespace Tabletop

/-!
# The table

A table holds the sources in use and what the outside world provides: random
numbers for new generators, a stream of identifiers, and the time. A roll for
which no source is chosen gets a new generator, but only once its text has been
read: a text that is no dice code leaves the table as it was. A report takes two
identifiers, and only if it succeeds.
-/

/-- The sources in use and the provisions for new ones. -/
structure Table where
  rack : Rack := {}
  entropy : Array Nat := #[0]
  identifiers : Nat → Identifier
  issued : Nat := 0
  moment : Moment

namespace Table

/-- Puts a new generator on the rack. -/
def addGenerator (table : Table) : Handle × Table :=
  let (handle, rack) := table.rack.addWell (.generator (.system table.entropy))
  (handle, { table with rack := rack })

/-- The chosen source, or a new generator. -/
def choose
    (table : Table) :
    Option Handle → Handle × Table
  | some handle => (handle, table)
  | none => table.addGenerator

/-- A step on the rack as a step on the table. -/
def onRack
    {α : Type}
    (table : Table)
    (step : Rack → Passage Rack α) :
    Passage Table α :=
  (step table.rack).mapLeft fun rack => { table with rack := rack }

/-- Rolls a code with the chosen source. -/
def evaluate
    (chosen : Option Handle)
    (rules : Rules)
    (code : DiceCode)
    (table : Table) :
    Passage Table Int :=
  let (handle, table) := table.choose chosen
  table.onRack ((Rack.source handle).evaluate rules code)

/-- Reads a text as a code and rolls it with the chosen source. -/
def rollText
    (chosen : Option Handle)
    (rules : Rules)
    (text : String)
    (table : Table) :
    Passage Table Int :=
  match DiceCode.read? text with
  | .error misread =>
      .failed (.misread misread) table
  | .ok code =>
      (table.evaluate chosen rules code).afterEntry (readEntry text code)

/-- Makes a report of an audit with the next two identifiers. -/
def issue
    (table : Table)
    (audit : Audit) :
    Report where
  requestId := table.identifiers table.issued
  nonce := table.identifiers (table.issued + 1)
  moment := table.moment
  audit := audit

/-- Reads a text as a code, rolls it with the chosen source and reports on it. -/
def report
    (chosen : Option Handle)
    (rules : Rules)
    (text : String)
    (table : Table) :
    Passage Table Report :=
  match DiceCode.read? text with
  | .error misread =>
      .failed (.misread misread) table
  | .ok code =>
      let (handle, table) := table.choose chosen
      let title := table.rack.title handle
      let passage := table.onRack ((Rack.source handle).auditCode title rules text code)
      match passage.outcome with
      | .ok _ =>
          (passage.map table.issue).mapLeft fun left => { left with issued := left.issued + 2 }
      | .error _ =>
          passage.map table.issue

end Table

end Tabletop
