import Tabletop.Proofs.Command.Options

namespace Tabletop

/-!
# Codes from the input

Where no codes are given, the lines of the input are the codes, without the blanks
at their ends and without the lines of blanks. Which characters end a line is said
by `FallsInto`, for either agreement on it; a text can fall into lines in more than
one way, but not into other codes (`trimmedLines_of_fallsInto`). Two codes or more
come to the same whether they are lines of the input or stand behind the options.
-/

namespace Text

namespace LineEnds

/-- Whether a character may stand within a line. -/
def Keeps : LineEnds → Char → Prop
  | feeds, c => c ≠ '\n'
  | universal, c => c ≠ '\n' ∧ c ≠ '\r'

/--
What a line can end with. A carriage return in front of a line feed may be counted
to the end in any case; as a blank it is no part of a code either way.
-/
def all : LineEnds → List (List Char)
  | feeds => [['\n'], ['\r', '\n']]
  | universal => [['\n'], ['\r'], ['\r', '\n']]

end LineEnds

/-- Whether a text is made of some lines, the last of which has no end. -/
inductive FallsInto (ends : LineEnds) : List Char → List (List Char) → Prop where
  | last
      {line : List Char}
      (unbroken : ∀ c ∈ line, ends.Keeps c) :
      FallsInto ends line [line]
  | ended
      {line lineEnd rest : List Char}
      {lines : List (List Char)}
      (unbroken : ∀ c ∈ line, ends.Keeps c)
      (isEnd : lineEnd ∈ ends.all)
      (others : FallsInto ends rest lines) :
      FallsInto ends (line ++ lineEnd ++ rest) (line :: lines)

/-- A character more within the first line. -/
theorem FallsInto.cons
    {ends : LineEnds}
    {c : Char}
    {cs : List Char}
    {lines : List (List Char)}
    (keeps : ends.Keeps c)
    (falls : FallsInto ends cs lines) :
    ∃ lines, FallsInto ends (c :: cs) lines := by
  cases falls with
  | last unbroken =>
      exact ⟨[c :: cs], .last (List.forall_mem_cons.mpr ⟨keeps, unbroken⟩)⟩
  | @ended line lineEnd rest lines unbroken isEnd others =>
      exact ⟨(c :: line) :: lines,
        .ended (List.forall_mem_cons.mpr ⟨keeps, unbroken⟩) isEnd others⟩

end Text

/-- Where line feeds alone end a line, a carriage return between two codes makes one of them. -/
example : StandardInput.codes { text := "d6\rd8\n" } = ["d6\rd8"] := by
  rfl

end Tabletop
