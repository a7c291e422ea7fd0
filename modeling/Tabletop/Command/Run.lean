import Tabletop.Command.Course
import Tabletop.Command.Invocation
import Tabletop.Request.Preferences
import Tabletop.Session.Table
import Tabletop.Text.Lines

namespace Tabletop

/-!
# Running the command line

The words of the command line are read first, then the preferences; only when
both are in order is a source needed. A switch can turn on what the preferences
leave off, and a switch about loudness goes before the preference.
-/

/--
The standard input, and what ends a line of it. Most systems do not translate line ends
on their way to the program, and some do.
-/
structure StandardInput where
  text : String := ""
  lineEnds : Text.LineEnds := .feeds
  deriving Repr, DecidableEq, Inhabited

/-- The codes in the input: one in each line that is not blank. -/
def StandardInput.codes (input : StandardInput) : List String :=
  Text.trimmedLines input.lineEnds input.text

/-- What a run of the program is given. -/
structure Surroundings where
  arguments : List String := []
  input : StandardInput := {}
  /-- What the user prefers, or what is wrong with it. -/
  preferences : Except (List (FieldFault String)) Preferences := .ok {}
  deriving Inhabited

/-- What a run of the program is going to do. -/
structure Plan where
  rules : Rules
  narrator : Narrator
  desk : Desk
  echo : Bool
  codes : List String
  deriving Repr, DecidableEq, Inhabited

/-- Why a run of the program rolls nothing. -/
inductive Obstacle where
  | dismissed (dismissal : Dismissal)
  | preferences (faults : List (FieldFault String))
  deriving Repr, DecidableEq, Inhabited

/-- What a run of the program leaves to be seen. -/
structure Run (σ : Type) where
  ending : Ending
  output : String
  /-- The error output, with `Entry.traceLine` in place of each trace. -/
  errors : String
  left : σ

namespace Plan

/-- The loudness that counts. -/
def loudness
    (invocation : Invocation)
    (preferences : Preferences) :
    Loudness :=
  if invocation.quiet then .quiet
  else if invocation.verbose then .verbose
  else preferences.loudness

/--
The plan for given words and preferences.

Where no codes are given, the lines of the input are the codes.
-/
def make
    (invocation : Invocation)
    (preferences : Preferences)
    (input : StandardInput) :
    Plan where
  rules :=
    { explode := invocation.explode || preferences.explode
      whole66 := invocation.whole66 || preferences.whole66 }
  narrator := { threshold := (loudness invocation preferences).rank }
  desk := Desk.configure (.named preferences.journal) {}
  echo := invocation.codes.length != 1
  codes := if invocation.codes = [] then input.codes else invocation.codes

/-- The plan of a run, unless something is in its way. -/
def make? (surroundings : Surroundings) : Except Obstacle Plan := do
  let invocation ← (Invocation.read? surroundings.arguments).mapError Obstacle.dismissed
  let preferences ← surroundings.preferences.mapError Obstacle.preferences
  .ok (make invocation preferences surroundings.input)

/-- Carries a plan out with a source. -/
def carryOut
    {σ : Type}
    (plan : Plan)
    (source : Source σ)
    (state : σ) :
    Run σ :=
  let course := source.follow plan.rules plan.echo plan.codes state
  { ending := course.ending
    output := plan.narrator.transcript course.remarks
    errors := String.join (course.notices.map (Notice.text plan.desk))
    left := course.left }

end Plan

namespace Dismissal

/--
What is seen of a run that is dismissed.

Help goes to the output, and what is wrong goes to the error output.
-/
def run
    {σ : Type}
    (dismissal : Dismissal)
    (state : σ) :
    Run σ :=
  match dismissal with
  | .help =>
      { ending := .status 0, output := Usage.help, errors := "", left := state }
  | .misuse wrong =>
      { ending := .status 2, output := "", errors := wrong.text, left := state }

end Dismissal

namespace Table

/-- Runs the program with the chosen source, or with a new generator once one is needed. -/
def command
    (chosen : Option Handle)
    (surroundings : Surroundings)
    (table : Table) :
    Except Obstacle (Run Table) :=
  (Plan.make? surroundings).map fun plan =>
    let (handle, table) := table.choose chosen
    let run := plan.carryOut (Rack.source handle) table.rack
    { ending := run.ending
      output := run.output
      errors := run.errors
      left := { table with rack := run.left } }

end Table

end Tabletop
