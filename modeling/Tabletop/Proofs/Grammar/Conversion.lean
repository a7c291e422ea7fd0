import Tabletop.Proofs.Grammar.Overlong

namespace Tabletop

/-!
# When a run of digits is converted

A look at the length of a run of digits comes before the run is converted. The look
is as good as the value: it refuses the runs of values from 1000 on, whatever
converting them would come to, and it has every other run converted, however long
that run is. A way of converting is a parameter here, which is how the two are told
apart: `refusedUnconverted_iff`.
-/

/-- What converting a run of digits comes to. -/
def convert? (digits : List Char) : Except Misread Nat :=
  if digitLimit < digits.length then
    .error (.oversized digits.length)
  else
    .ok (Text.numeralValue digits)

/-- Reads a number with a given way of converting a run of digits. -/
def readNumberBy
    (convert : List Char → Except Misread Nat)
    (cs : List Char) :
    Except Misread (Nat × List Char) :=
  let (digits, rest) := Text.spanDigits cs
  let bad : CodeError := .badNumber (String.ofList digits)
  if digits = [] then
    .error (.rejected bad)
  else if 3 < (Text.significant digits).length then
    .error (.rejected bad)
  else do
    let value ← convert digits
    if greatestNumber < value then
      .error (.rejected bad)
    else
      .ok (value, rest)

theorem readNumberBy_convert? (cs : List Char) :
    readNumberBy convert? cs = readNumber cs := by
  unfold readNumberBy readNumber convert?
  rcases Text.spanDigits cs with ⟨digits, rest⟩
  dsimp only
  by_cases long : digitLimit < digits.length
  · simp [long, bind, Except.bind]
  · simp [long, bind, Except.bind]

section

variable {cs run rest : List Char}

/-- A run of digits of a value below 1000 is converted, and fails where that fails. -/
theorem readNumberBy_of_small
    (leading : Text.LeadingRun cs run rest)
    (notEmpty : run ≠ [])
    (small : Text.numeralValue run < 1000)
    {convert : List Char → Except Misread Nat}
    {misread : Misread}
    (fails : convert run = .error misread) :
    readNumberBy convert cs = .error misread := by
  have few : ¬ 3 < (Text.significant run).length := by
    rw [Text.three_lt_length_significant_iff leading.digits]
    exact Nat.not_le_of_lt small
  simp [readNumberBy, leading.spanDigits_eq, notEmpty, few, fails, bind, Except.bind]

/-- A run of digits is refused without being converted exactly if its value is 1000 or more. -/
theorem refusedUnconverted_iff (leading : Text.LeadingRun cs run rest) :
    (run ≠ [] ∧
        ∀ convert,
          readNumberBy convert cs = .error (.rejected (.badNumber (String.ofList run)))) ↔
      1000 ≤ Text.numeralValue run := by
  constructor
  · rintro ⟨notEmpty, refused⟩
    apply Nat.le_of_not_lt
    intro small
    -- A conversion that fails in a way of its own shows that the run is converted.
    let failing (_ : List Char) : Except Misread Nat := .error (.oversized 0)
    have fails : failing run = .error (.oversized 0) := rfl
    have converted := readNumberBy_of_small leading notEmpty small fails
    rw [refused failing] at converted
    cases converted
  · intro large
    have notEmpty : run ≠ [] := by
      rintro rfl
      exact absurd large (by decide)
    have many := (Text.three_lt_length_significant_iff leading.digits).mpr large
    refine ⟨notEmpty, fun convert => ?_⟩
    simp [readNumberBy, leading.spanDigits_eq, notEmpty, many]

/-- A missing number is the only one that is blamed without a text. -/
theorem readNumber_missing_iff (leading : Text.LeadingRun cs run rest) :
    readNumber cs = .error (.rejected (.badNumber "")) ↔ run = [] := by
  constructor
  · intro missing
    apply Classical.byContradiction
    intro notEmpty
    have named : String.ofList run ≠ "" := by
      simpa [String.ofList_eq_empty_iff] using notEmpty
    rw [readNumber_of_leadingRun leading, if_neg notEmpty] at missing
    repeat' split at missing
    all_goals simp_all
  · intro empty
    rw [readNumber_of_leadingRun leading, if_pos empty]

/-- What becomes of a run of digits that is not too long to be converted. -/
theorem readNumber_of_short
    (leading : Text.LeadingRun cs run rest)
    (notEmpty : run ≠ [])
    (short : run.length ≤ digitLimit) :
    readNumber cs =
      if Text.numeralValue run ≤ greatestNumber then
        .ok (Text.numeralValue run, rest)
      else
        .error (.rejected (.badNumber (String.ofList run))) := by
  by_cases inRange : Text.numeralValue run ≤ greatestNumber
  · let n : WrittenNumber := ⟨run, notEmpty, leading.digits, inRange⟩
    rw [if_pos inRange]
    exact @readNumber_written cs rest n leading short
  · have large := Nat.lt_of_not_le inRange
    have runs := readNumber_of_leadingRun leading
    rw [if_neg notEmpty, if_neg (Nat.not_lt_of_le short), if_pos large, ite_self] at runs
    rw [if_neg inRange]
    exact runs

/--
The look at the length of a run of digits agrees with the value of the run. A number
is missing exactly if there is no run; a run that is not too long to be converted is
read for its value, or blamed for it; and a run of any length is refused unconverted
exactly if its value is 1000 or more.
-/
theorem readNumber_agrees (leading : Text.LeadingRun cs run rest) :
    (readNumber cs = .error (.rejected (.badNumber "")) ↔ run = []) ∧
      (1 ≤ run.length →
        run.length ≤ digitLimit →
          readNumber cs =
            if Text.numeralValue run ≤ greatestNumber then
              .ok (Text.numeralValue run, rest)
            else
              .error (.rejected (.badNumber (String.ofList run)))) ∧
      readNumberBy convert? cs = readNumber cs ∧
      ((Text.numeral greatestNumber).length < (Text.significant run).length ↔
        1000 ≤ Text.numeralValue run) ∧
      ((run ≠ [] ∧
          ∀ convert,
            readNumberBy convert cs = .error (.rejected (.badNumber (String.ofList run)))) ↔
        1000 ≤ Text.numeralValue run) := by
  refine ⟨readNumber_missing_iff leading, ?_, readNumberBy_convert? cs, ?_,
    refusedUnconverted_iff leading⟩
  · intro nonempty short
    exact readNumber_of_short leading (List.ne_nil_of_length_pos nonempty) short
  · exact Text.three_lt_length_significant_iff leading.digits

end

/-- A value between the two tests, and a run that is converted although it is too long. -/
theorem readNumber_agrees_padded :
    let between := ['0', '0', '2', '5', '6']
    let long := List.replicate 5000 '0' ++ ['9', '9', '9']
    Text.LeadingRun (between ++ ['+', '1']) between ['+', '1'] ∧
      readNumber (between ++ ['+', '1']) = .error (.rejected (.badNumber "00256")) ∧
      Text.LeadingRun long long [] ∧
      ¬ ∀ convert,
          readNumberBy convert long = .error (.rejected (.badNumber (String.ofList long))) := by
  intro between long
  have betweenLeads : Text.LeadingRun (between ++ ['+', '1']) between ['+', '1'] :=
    ⟨rfl, by decide, by simp⟩
  have longDigits : Text.IsDigits long := Text.isDigits_zeros (by decide)
  have longLeads : Text.LeadingRun long long [] :=
    ⟨(List.append_nil long).symm, longDigits, Text.noDigitAhead_nil⟩
  have betweenAgrees := (readNumber_agrees betweenLeads).2.1 (by decide) (by decide)
  have longAgrees := (readNumber_agrees longLeads).2.2.2.2
  refine ⟨betweenLeads, betweenAgrees, longLeads, ?_⟩
  intro refused
  have notEmpty : long ≠ [] := List.append_ne_nil_of_right_ne_nil _ (List.cons_ne_nil _ _)
  have large := longAgrees.mp ⟨notEmpty, refused⟩
  rw [Text.numeralValue_zeros] at large
  exact absurd large (by decide)

end Tabletop
