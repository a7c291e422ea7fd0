import Tabletop.Roll.Audit

namespace Tabletop

/-!
# Reports

A report is an audit with two identifiers and the time at which it was made.
-/

/-- An identifier of 32 hexadecimal digits. -/
structure Identifier where
  digits : String
  deriving Repr, DecidableEq, Inhabited

namespace Identifier

/-- The digits in lower case. -/
def plain (id : Identifier) : String :=
  id.digits.map Char.toLower

/-- The digits in lower case in groups of 8, 4, 4, 4 and 12, with dashes between them. -/
def dashed (id : Identifier) : String :=
  let digits := id.plain.toList
  let groups := [(0, 8), (8, 4), (12, 4), (16, 4), (20, 12)].map fun (start, length) =>
    String.ofList ((digits.drop start).take length)
  "-".intercalate groups

end Identifier

/-- A moment in coordinated universal time, to the second. -/
structure Moment where
  year : Nat
  month : Nat
  day : Nat
  hour : Nat
  minute : Nat
  second : Nat
  deriving Repr, DecidableEq, Inhabited

namespace Moment

/-- A number with zeros in front up to the given width. -/
def padded
    (width n : Nat) :
    String :=
  let digits := Text.numeral n
  String.ofList (List.replicate (width - digits.length) '0' ++ digits)

/-- Date and time, joined by `T` and followed by `Z`. -/
def text (moment : Moment) : String :=
  padded 4 moment.year ++ "-" ++ padded 2 moment.month ++ "-" ++ padded 2 moment.day ++ "T" ++
    padded 2 moment.hour ++ ":" ++ padded 2 moment.minute ++ ":" ++ padded 2 moment.second ++ "Z"

end Moment

/-- An audit as it is handed out. -/
structure Report where
  requestId : Identifier
  nonce : Identifier
  moment : Moment
  audit : Audit
  deriving Repr, DecidableEq, Inhabited

end Tabletop
