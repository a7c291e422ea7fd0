import Tabletop.Text.Blank
import Tabletop.Text.Capital
import Tabletop.Text.Quoted

namespace Tabletop

/-!
# Narration

What a roll has to say to people. Every remark has a level, and a narrator
passes on those at or below its threshold. Remarks are made whether or not
anyone listens, so a narrator is a projection of the list of remarks:
`heard_append` and `heard_sublist`.
-/

/-- The three named thresholds. -/
inductive Loudness where
  | quiet
  | standard
  | verbose
  deriving Repr, DecidableEq, Inhabited

namespace Loudness

/-- The threshold as a number. -/
def rank : Loudness → Int
  | quiet => 0
  | standard => 1
  | verbose => 2

/-- The threshold's name in capital letters. -/
def name : Loudness → String
  | quiet => "QUIET"
  | standard => "STANDARD"
  | verbose => "VERBOSE"

/-- The threshold's name as it is written in a setting. -/
def word : Loudness → String
  | quiet => "quiet"
  | standard => "standard"
  | verbose => "verbose"

/-- The threshold that a setting means; only the exact words are known. -/
def ofWord? (word : String) : Option Loudness :=
  [quiet, standard, verbose].find? fun loudness => loudness.word = word

/-- The threshold of a given name, in letters of any case and with any blanks around it. -/
def ofName? (text : String) : Option Loudness :=
  [quiet, standard, verbose].find? fun loudness =>
    loudness.name = Text.capitals (Text.trim text)

/-- What is said of a name that is none of the three. -/
def unknownMessage (text : String) : String :=
  "Unknown output level " ++ Text.quoted text ++ ". Use one of: quiet, standard, verbose."

end Loudness

/-- One line for people, and the least threshold at which it is passed on. -/
structure Remark where
  level : Int
  text : String
  deriving Repr, DecidableEq, Inhabited

namespace Remark

/-- A remark that every named threshold passes on. -/
def quiet (text : String) : Remark :=
  ⟨Loudness.quiet.rank, text⟩

/-- A remark for the standard threshold and above. -/
def standard (text : String) : Remark :=
  ⟨Loudness.standard.rank, text⟩

/-- A remark for the highest threshold only. -/
def verbose (text : String) : Remark :=
  ⟨Loudness.verbose.rank, text⟩

end Remark

/-- A narrator passes on the remarks up to its threshold, or none if it is muted. -/
structure Narrator where
  threshold : Int := Loudness.standard.rank
  muted : Bool := false
  deriving Repr, DecidableEq, Inhabited

namespace Narrator

/-- Whether a remark is passed on. -/
def passes
    (narrator : Narrator)
    (remark : Remark) :
    Bool :=
  !narrator.muted && decide (remark.level ≤ narrator.threshold)

/-- The remarks that are passed on, in order. -/
def heard
    (narrator : Narrator)
    (remarks : List Remark) :
    List Remark :=
  remarks.filter narrator.passes

/-- The text that is passed on: each remark on a line of its own. -/
def transcript
    (narrator : Narrator)
    (remarks : List Remark) :
    String :=
  String.join ((narrator.heard remarks).map fun remark => remark.text ++ "\n")

theorem heard_append
    (narrator : Narrator)
    (first second : List Remark) :
    narrator.heard (first ++ second) =
      narrator.heard first ++ narrator.heard second :=
  List.filter_append ..

theorem heard_sublist
    (narrator : Narrator)
    (remarks : List Remark) :
    List.Sublist (narrator.heard remarks) remarks :=
  List.filter_sublist

end Narrator

end Tabletop
