namespace Tabletop.Text

/-!
# Capital letters

Capital forms, for comparing a text with names that are written in the letters
`A` to `Z`. Ten characters outside the basic alphabet have capital forms made
of those letters; every other one stands for itself, since whatever its capital
form is, it matches no such name.
-/

/-- The capital form of a character. -/
def capital (c : Char) : List Char :=
  match c with
  | 'ı' => ['I']
  | 'ſ' => ['S']
  | 'ß' => ['S', 'S']
  | 'ﬀ' => ['F', 'F']
  | 'ﬁ' => ['F', 'I']
  | 'ﬂ' => ['F', 'L']
  | 'ﬃ' => ['F', 'F', 'I']
  | 'ﬄ' => ['F', 'F', 'L']
  | 'ﬅ' => ['S', 'T']
  | 'ﬆ' => ['S', 'T']
  | c => [c.toUpper]

/-- A text in capital letters. -/
def capitals (text : String) : String :=
  String.ofList (text.toList.flatMap capital)

end Tabletop.Text
