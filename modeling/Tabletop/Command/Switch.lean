namespace Tabletop

/-!
# Switches

The switches of the command line. Each has a short and a long form, and none of
them takes a value.
-/

/-- A switch of the command line. -/
inductive Switch where
  | help
  | explode
  | whole66
  | quiet
  | verbose
  deriving Repr, DecidableEq, Inhabited

namespace Switch

/-- All switches, in the order in which they are listed. -/
def all : List Switch :=
  [help, explode, whole66, quiet, verbose]

/-- The character of the short form. -/
def letter : Switch → Char
  | help => 'h'
  | explode => 'e'
  | whole66 => '6'
  | quiet => 'q'
  | verbose => 'v'

/-- The long form. -/
def long : Switch → String
  | help => "--help"
  | explode => "--explode"
  | whole66 => "--force-66"
  | quiet => "--quiet"
  | verbose => "--verbose"

/-- The short form. -/
def short (switch : Switch) : String :=
  String.ofList ['-', switch.letter]

/-- Both forms, as messages name the switch. -/
def title (switch : Switch) : String :=
  switch.short ++ "/" ++ switch.long

/-- The switch whose short form has the given character. -/
def ofLetter? (letter : Char) : Option Switch :=
  all.find? fun switch => switch.letter = letter

/-- The switch that may not stand beside a given one. -/
def rival? : Switch → Option Switch
  | quiet => some verbose
  | verbose => some quiet
  | _ => none

end Switch

end Tabletop
