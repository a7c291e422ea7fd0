import Tabletop.Roll.Evaluate
import Tabletop.Text.Quoted

namespace Tabletop

/-!
# Rolling one code after the other

The codes of a command line are rolled from one source until one of them is
rejected. What is said and written on the way is gathered without a look at
which of it will be passed on.
-/

/-- What goes to the error output: an entry that a desk decides about, or a line as it is. -/
inductive Notice where
  | entry (entry : Entry)
  | line (text : String)
  deriving Repr, DecidableEq, Inhabited

namespace Notice

/-- The text of a notice under a desk. -/
def text
    (desk : Desk) :
    Notice → String
  | entry e => desk.written [e]
  | line text => text ++ "\n"

end Notice

/-- How a run of codes ends: with an exit status, or with a failure that is nobody's input. -/
inductive Ending where
  | status (status : Nat)
  | escaped (failure : Failure)
  deriving Repr, DecidableEq, Inhabited

/-- A run of codes. -/
structure Course (σ : Type) where
  ending : Ending
  remarks : List Remark := []
  notices : List Notice := []
  left : σ

/-- The entry about a rejected code. -/
def rejectEntry
    (code : String)
    (error : CodeError) :
    Entry where
  channel := Channel.commandLine
  severity := Severity.debug
  message := "rejected " ++ Text.quoted code
  cause := some error.name

/-- The remark on a result. -/
def Remark.result (result : Int) : Remark :=
  .quiet ("===> " ++ Text.showInt result)

namespace Source

variable {σ : Type}

/-- What is said before a code is rolled, if codes are echoed. -/
def echoBefore
    (echo : Bool)
    (code : String) :
    List Remark :=
  if echo then [.standard code] else []

/-- What is said after a result, if codes are echoed. -/
def echoAfter (echo : Bool) : List Remark :=
  if echo then [.standard ""] else []

/-- Rolls codes until the first that is rejected. -/
def follow
    (source : Source σ)
    (rules : Rules)
    (echo : Bool) :
    List String → σ → Course σ
  | [], state =>
      { ending := .status 0, left := state }
  | code :: rest, state =>
      let passage := source.rollText rules code state
      let remarks := echoBefore echo code ++ passage.remarks
      let notices := passage.entries.map Notice.entry
      match passage.outcome with
      | .ok result =>
          let course := source.follow rules echo rest passage.left
          { course with
            remarks := remarks ++ .result result :: (echoAfter echo ++ course.remarks)
            notices := notices ++ course.notices }
      | .error (.misread (.rejected error)) =>
          { ending := .status 1
            remarks := remarks
            notices := notices ++
              [.entry (rejectEntry code error), .line ("error: " ++ error.message)]
            left := passage.left }
      | .error failure =>
          { ending := .escaped failure
            remarks := remarks
            notices := notices
            left := passage.left }

end Source

end Tabletop
