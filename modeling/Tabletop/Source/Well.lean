import Tabletop.Source.Basic

namespace Tabletop

/-!
# Kinds of sources

A well is a source as a value: a script that is read once, a script that is read
in a circle, one fixed face, or a generator that turns a circle of random
numbers into faces.
-/

/-- A random generator, with the sides it was asked for, latest first. -/
structure Generator where
  title : String
  entropy : Array Nat
  given : Nat := 0
  asked : List Int := []
  deriving Repr, DecidableEq, Inhabited

namespace Generator

/-- The title of the generator that the operating system provides. -/
def systemTitle : String := "random.SystemRandom"

/-- A generator of the operating system that was not asked yet. -/
def system (entropy : Array Nat) : Generator where
  title := systemTitle
  entropy := entropy

/-- Whether the operating system provides the generator. -/
def isSystem (g : Generator) : Bool :=
  g.title = systemTitle

/-- The random number for the next face. -/
def next (g : Generator) : Nat :=
  g.entropy.getD (g.given % g.entropy.size) 0

/--
A face is one more than the remainder of the random number by the number of sides.

A die without sides uses up no random number.
-/
def draw
    (g : Generator)
    (sides : Int) :
    Except Refusal Int × Generator :=
  if sides ≤ 0 then
    (.error (.forDie sides .sideless), g)
  else
    (.ok (1 + g.next % sides), { g with given := g.given + 1, asked := sides :: g.asked })

end Generator

/-- A source of faces as a value. -/
inductive Well where
  | script (left : List Int) (given : Nat)
  | circle (faces : Array Int) (given : Nat)
  | fixed (face : Int)
  | generator (g : Generator)
  deriving Repr, DecidableEq, Inhabited

namespace Well

/-- The name under which a report lists the source. -/
def title : Well → String
  | script _ _ => "SequenceRoller"
  | circle _ _ => "SequenceRoller"
  | fixed _ => "ConstantRoller"
  | generator g => g.title

/-- The answer to being asked for a die, and the well after it. Only a generator minds the sides. -/
def draw
    (sides : Int) :
    Well → Except Refusal Int × Well
  | script [] given =>
      (.error (.forDie sides (.exhausted given)), script [] given)
  | script (face :: left) given =>
      (.ok face, script left (given + 1))
  | circle faces given =>
      match faces[given % faces.size]? with
      | some face => (.ok face, circle faces (given + 1))
      | none => (.error (.forDie sides (.exhausted given)), circle faces given)
  | fixed face =>
      (.ok face, fixed face)
  | generator g =>
      let (answer, g) := g.draw sides
      (answer, generator g)

/--
The sixes in a row after which only sixes are left: all of a script, once round
a circle, none of a fixed face.
-/
def streak : Well → Nat
  | script left _ => left.length
  | circle faces _ => faces.size
  | fixed _ => 0
  | generator g => g.entropy.size

/-- Wells as a source. -/
def source : Source Well where
  draw := draw
  streak := streak

end Well

end Tabletop
