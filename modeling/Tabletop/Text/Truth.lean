namespace Tabletop.Text

/-!
# Truth values in words

The words that mean yes and no, in letters of any case. There is no blank
around them and no other word means either.
-/

/-- The words for yes. -/
def yesWords : List String :=
  ["1", "t", "true", "on", "y", "yes"]

/-- The words for no. -/
def noWords : List String :=
  ["0", "f", "false", "off", "n", "no"]

/-- The letters `A` to `Z` in lower case; all other characters as they are. -/
def lower (text : String) : String :=
  text.map Char.toLower

/-- The truth value that a word means, if it means one. -/
def truth? (word : String) : Option Bool :=
  if lower word ∈ yesWords then some true
  else if lower word ∈ noWords then some false
  else none

end Tabletop.Text
