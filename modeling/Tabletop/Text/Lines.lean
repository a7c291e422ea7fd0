import Tabletop.Text.Blank

namespace Tabletop.Text

/-!
# Lines

What ends a line depends on the stream that hands the text over: a line feed alone,
or a carriage return as well and the pair of them. No other character ends a line.
A carriage return in front of a line feed is never part of what is left of a line
without the blanks at its ends; one in any other place makes a difference.
-/

/-- The text with a line feed at the end of every line. -/
def unifyLineEnds : List Char → List Char
  | [] => []
  | '\r' :: '\n' :: rest => '\n' :: unifyLineEnds rest
  | '\r' :: rest => '\n' :: unifyLineEnds rest
  | c :: rest => c :: unifyLineEnds rest

/-- The lines of a text in which every line ends with a line feed. -/
def splitLines : List Char → List (List Char)
  | [] => [[]]
  | '\n' :: rest => [] :: splitLines rest
  | c :: rest =>
      match splitLines rest with
      | [] => [[c]]
      | line :: lines => (c :: line) :: lines

/-- What ends a line of a text. -/
inductive LineEnds where
  /-- A line feed, and nothing else: the stream hands over what it is given. -/
  | feeds
  /-- A line feed, a carriage return, or the pair of them: the stream translates line ends. -/
  | universal
  deriving Repr, DecidableEq, Inhabited

/-- The text with a line feed at the end of every line, and in no other place. -/
def LineEnds.unify : LineEnds → List Char → List Char
  | feeds, cs => cs
  | universal, cs => unifyLineEnds cs

/-- The lines of a text without the blanks at their ends; lines of blanks are left out. -/
def trimmedLines
    (ends : LineEnds)
    (text : String) :
    List String :=
  (((splitLines (ends.unify text.toList)).map trimChars).filter (!·.isEmpty)).map String.ofList

end Tabletop.Text
