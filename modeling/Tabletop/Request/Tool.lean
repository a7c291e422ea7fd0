import Tabletop.Request.Field
import Tabletop.Session.Table

namespace Tabletop

/-!
# Rolling as a tool

Other programs roll a code by a direct call, or by a call with named arguments.
The arguments are checked together before anything is read, then the call is a
report with a new generator. A direct call hands on the message of a rejected
code alone.
-/

/-- The value of an argument. -/
inductive Argument where
  | text (value : String)
  | integer (value : Int)
  | truth (value : Bool)
  | other
  deriving Repr, DecidableEq, Inhabited

/-- The named arguments of a call; of two with one name the first counts. -/
abbrev Arguments := List (String × Argument)

/-- What a parameter of the tool takes. -/
structure Parameter where
  name : String
  title : String
  kind : String
  byDefault : Option Bool := none
  deriving Repr, DecidableEq, Inhabited

namespace Tool

/-- The name of the tool. -/
def name : String := "roll_dice"

/-- The title of the tool's record of arguments. -/
def argumentsTitle : String := name ++ "Arguments"

/-- What the tool does, for those who call it. -/
def description : String :=
  "Roll a dice code such as '2d6+3', 'd6xd6', 'd66' or '3d12-3E'.\n\n" ++
    "    Input: code (string); explode makes sixes on a d6 roll again and add;\n" ++
    "    force_standard_66 treats d66 as a real 66-sided die.\n" ++
    "    Output: structured JSON with every die drawn + explanation\n\n" ++
    "    Raises a hard error (exception) on invalid input.\n    "

/-- The name of the argument that holds the code. -/
def codeName : String := "code"

/-- The name of the argument that makes sixes explode. -/
def explodeName : String := "explode"

/-- The name of the argument that makes a die of 66 sides one die. -/
def whole66Name : String := "force_standard_66"

/-- The parameters in order; one without a value by default is required. -/
def parameters : List Parameter :=
  [{ name := codeName, title := "Code", kind := "string" },
    { name := explodeName, title := "Explode", kind := "boolean", byDefault := some false },
    { name := whole66Name
      title := "Force Standard 66"
      kind := "boolean"
      byDefault := some false }]

/-- The truth value that an argument means, if it means one. -/
def truthOf? : Argument → Option Bool
  | .truth value => some value
  | .integer 0 => some false
  | .integer 1 => some true
  | .text word => Text.truth? word
  | .integer _ | .other => none

/-- Checks an argument that must be a text. -/
def textArgument
    (arguments : Arguments)
    (field : String) :
    Checked Argument String :=
  match arguments.lookup field with
  | some (.text value) => .ok value
  | some value => .error { field := field, cause := .notText, input := some value }
  | none => .error { field := field, cause := .missing, input := none }

/-- Checks an argument that must be a truth value and is no where it is left out. -/
def truthArgument
    (arguments : Arguments)
    (field : String) :
    Checked Argument Bool :=
  match arguments.lookup field with
  | none => .ok false
  | some value =>
      match truthOf? value with
      | some truth => .ok truth
      | none => .error { field := field, cause := .notTruth, input := some value }

/-- Checks all arguments of a call. Arguments of other names are left aside. -/
def accept?
    (arguments : Arguments) :
    Except (List (FieldFault Argument)) (String × Rules) :=
  let code := textArgument arguments codeName
  let explode := truthArgument arguments explodeName
  let whole66 := truthArgument arguments whole66Name
  match code, explode, whole66 with
  | .ok code, .ok explode, .ok whole66 =>
      .ok (code, { explode := explode, whole66 := whole66 })
  | code, explode, whole66 =>
      .error (code.faults ++ explode.faults ++ whole66.faults)

/-- Rolls a code with a new generator and reports on it. -/
def perform
    (rules : Rules)
    (code : String)
    (table : Table) :
    Passage Table Report :=
  table.report none rules code

/-- What a direct call without a report ends with. -/
inductive Complaint where
  /-- The message of a rejected code, without its kind. -/
  | plain (message : String)
  | failure (failure : Failure)
  deriving Repr, DecidableEq, Inhabited

/-- How a failure is passed on: only a rejected code is reduced to its message. -/
def complaint : Failure → Complaint
  | .misread (.rejected error) => .plain error.message
  | failure => .failure failure

/-- A direct call: a report with a new generator, or a complaint. -/
def roll
    (rules : Rules)
    (code : String)
    (table : Table) :
    Except Complaint Report × Table :=
  let passage := perform rules code table
  (passage.outcome.mapError complaint, passage.left)

/-- The message of a failed call made by name. -/
def failureMessage (failure : Failure) : String :=
  "Error executing tool " ++ name ++ ": " ++ failure.message

/-- How a call by name ends without a report. -/
inductive Refusal where
  | faults (faults : List (FieldFault Argument))
  | failure (failure : Failure)
  deriving Repr, DecidableEq, Inhabited

/-- A call by name: the arguments are checked first. -/
def call
    (arguments : Arguments)
    (table : Table) :
    Except Refusal Report × Table :=
  match accept? arguments with
  | .error faults =>
      (.error (.faults faults), table)
  | .ok (code, rules) =>
      let passage := perform rules code table
      (passage.outcome.mapError Refusal.failure, passage.left)

end Tool

end Tabletop
