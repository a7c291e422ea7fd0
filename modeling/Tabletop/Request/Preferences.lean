import Tabletop.Narration
import Tabletop.Request.Assignments
import Tabletop.Request.Field

namespace Tabletop

/-!
# Preferences

What a user prefers where the command line says nothing. A preference is taken
from the environment, or else from a file of assignments. Its name has a common
beginning and may be written in letters of any case.
-/

/-- The four preferences. -/
structure Preferences where
  explode : Bool := false
  whole66 : Bool := false
  loudness : Loudness := .standard
  journal : String := "WARNING"
  deriving Repr, DecidableEq, Inhabited

/-- Where preferences come from: the environment, and the text of a file if there is one. -/
structure PreferenceSources where
  environment : List (String × String) := []
  file : Option String := none
  deriving Repr, DecidableEq, Inhabited

namespace PreferenceSources

/-- How the names of all preferences begin. -/
def commonBeginning : String := "DIECODES_"

/-- Whether a name is that of a preference. -/
def isNameOf
    (field name : String) :
    Bool :=
  Text.lower name = Text.lower (commonBeginning ++ field)

/-- The value given for a preference; the empty text is a value. -/
def value?
    (sources : PreferenceSources)
    (field : String) :
    Option String :=
  match sources.environment.find? fun entry => isNameOf field entry.1 with
  | some entry => some entry.2
  | none =>
      (sources.file.map (Assignment.ofFile sources.environment)).bind fun assignments =>
        (assignments.find? fun assignment => isNameOf field assignment.name).bind
          Assignment.value

/-- Reads one preference, which has a value by default. -/
def read
    {α : Type}
    (sources : PreferenceSources)
    (field : String)
    (cause : FieldCause)
    (meaning? : String → Option α)
    (byDefault : α) :
    Checked String α :=
  match sources.value? field with
  | none => .ok byDefault
  | some text =>
      match meaning? text with
      | some value => .ok value
      | none => .error { field := field, cause := cause, input := some text }

/-- Reads all preferences, or lists the faults of those that mean nothing. -/
def read? (sources : PreferenceSources) : Except (List (FieldFault String)) Preferences :=
  let explode := sources.read "explode" .notTruth Text.truth? false
  let whole66 := sources.read "force_standard_66" .notTruth Text.truth? false
  let loudness := sources.read "verbosity" .notVerbosity Loudness.ofWord? Loudness.standard
  let journal := (sources.value? "log_level").getD "WARNING"
  match explode, whole66, loudness with
  | .ok explode, .ok whole66, .ok loudness =>
      .ok { explode := explode, whole66 := whole66, loudness := loudness, journal := journal }
  | explode, whole66, loudness =>
      .error (explode.faults ++ whole66.faults ++ loudness.faults)

end PreferenceSources

end Tabletop
