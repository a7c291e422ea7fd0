import Tabletop.Source.Well

namespace Tabletop

/-!
# A rack of shared sources

Several sources may draw from the same well, and each draw may be written into
notebooks on the way. A rack holds the wells and the notebooks; a handle names
one well and the notebooks that its draws are written into, so that handles
which share a well see each other's draws.
-/

/-- The sides and the face of each draw that was written down, in order. -/
abbrev Notebook := Array (Int × Int)

/-- All wells and notebooks in use, each known by its place. -/
structure Rack where
  wells : Array Well := #[]
  notebooks : Array Notebook := #[]
  deriving Repr, DecidableEq, Inhabited

/-- A well and the notebooks in front of it, outermost first. -/
structure Handle where
  well : Nat
  notebooks : List Nat := []
  deriving Repr, DecidableEq, Inhabited

namespace Rack

/-- Puts a well on the rack. -/
def addWell
    (rack : Rack)
    (well : Well) :
    Handle × Rack :=
  ({ well := rack.wells.size }, { rack with wells := rack.wells.push well })

/-- Puts an empty notebook in front of a handle. -/
def addNotebook
    (rack : Rack)
    (handle : Handle) :
    Handle × Rack :=
  ({ handle with notebooks := rack.notebooks.size :: handle.notebooks },
    { rack with notebooks := rack.notebooks.push #[] })

/-- Writes a draw into one notebook. -/
def write
    (rack : Rack)
    (roll : Int × Int)
    (notebook : Nat) :
    Rack :=
  { rack with notebooks := rack.notebooks.modify notebook (·.push roll) }

/-- Draws through a handle: an answer is written into all its notebooks. A missing well is dry. -/
def draw
    (handle : Handle)
    (sides : Int)
    (rack : Rack) :
    Except Refusal Int × Rack :=
  match rack.wells[handle.well]? with
  | none =>
      (.error (.forDie sides (.exhausted 0)), rack)
  | some well =>
      let (answer, well) := well.draw sides
      let rack := { rack with wells := rack.wells.setIfInBounds handle.well well }
      match answer with
      | .error refusal =>
          (.error refusal, rack)
      | .ok face =>
          (.ok face, handle.notebooks.foldl (write · (sides, face) ·) rack)

/-- The bound on sixes in a row of the well behind a handle. -/
def streak
    (handle : Handle)
    (rack : Rack) :
    Nat :=
  (rack.wells[handle.well]?.map Well.streak).getD 0

/-- A handle as a source whose state is the whole rack. -/
def source (handle : Handle) : Source Rack where
  draw := draw handle
  streak := streak handle

/-- The name under which a report lists the source behind a handle. -/
def title
    (rack : Rack)
    (handle : Handle) :
    String :=
  match handle.notebooks with
  | _ :: _ => "RecordingRoller"
  | [] => (rack.wells[handle.well]?.map Well.title).getD ""

/-- The generators that the operating system provided, in the order in which they were made. -/
def systemGenerators (rack : Rack) : List Generator :=
  rack.wells.toList.filterMap fun well =>
    match well with
    | .generator g => if g.isSystem then some g else none
    | _ => none

end Rack

end Tabletop
