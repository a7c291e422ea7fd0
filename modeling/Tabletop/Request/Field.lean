import Tabletop.Text.Truth

namespace Tabletop

/-!
# Fields given from outside

Settings and tool calls are records whose fields arrive as loose values. A field
is checked on its own, and all faults of a record are listed together in the
order of its fields.
-/

/-- What is wrong with a field. -/
inductive FieldCause where
  | missing
  | notText
  | notTruth
  | notVerbosity
  deriving Repr, DecidableEq, Inhabited

namespace FieldCause

/-- What is wrong, in words. -/
def message : FieldCause → String
  | missing => "Field required"
  | notText => "Input should be a valid string"
  | notTruth => "Input should be a valid boolean, unable to interpret input"
  | notVerbosity => "Input should be 'quiet', 'standard' or 'verbose'"

end FieldCause

/-- A fault in a field, with the value that was given for it. -/
structure FieldFault (ι : Type) where
  field : String
  cause : FieldCause
  input : Option ι
  deriving Repr, DecidableEq, Inhabited

/-- A field's value, or its fault. -/
abbrev Checked (ι α : Type) := Except (FieldFault ι) α

namespace Checked

variable {ι α : Type}

/-- The faults of a field: one or none. -/
def faults : Checked ι α → List (FieldFault ι)
  | .ok _ => []
  | .error fault => [fault]

end Checked

end Tabletop
