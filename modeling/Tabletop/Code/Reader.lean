import Tabletop.Code.Basic
import Tabletop.Code.Error
import Tabletop.Text.Blank
import Tabletop.Text.Numeral

namespace Tabletop

/-!
# Reading dice codes

A code is a chain of factors joined by `x`, with one `E` after the last of them
if sixes explode. A factor is an optional count, a `d`, a number of sides and an
optional modifier. The reader goes from left to right and stops at the first
fault. Blanks are allowed at the two ends of the text only.

`readFactor_length` says that a factor takes at least one character, which is
why reading a chain ends. `readFactors_of_error`, `readFactors_of_more` and
`readFactors_of_last` say how a chain begins with its first factor.
-/

/--
Reads a number from 0 to 255 with any zeros in front.

A run with more than three significant digits is refused before its length
matters, so that only a run of mostly zeros can be too long to be converted.
-/
def readNumber (cs : List Char) : Except Misread (Nat × List Char) :=
  let (digits, rest) := Text.spanDigits cs
  let text := String.ofList digits
  if digits = [] then
    .error (.rejected (.badNumber text))
  else if 3 < (Text.significant digits).length then
    .error (.rejected (.badNumber text))
  else if digitLimit < digits.length then
    .error (.oversized digits.length)
  else if greatestNumber < Text.numeralValue digits then
    .error (.rejected (.badNumber text))
  else
    .ok (Text.numeralValue digits, rest)

/-- Reads the count in front of a `d`; where no digit stands, one die is meant. -/
def readCount (cs : List Char) : Except Misread (Nat × List Char) :=
  if cs.head?.any Char.isDigit then do
    let (count, rest) ← readNumber cs
    if count = 0 then
      .error (.rejected .noRepeats)
    else
      .ok (count, rest)
  else
    .ok (1, cs)

/-- Reads the number of sides after a `d`. -/
def readSides (cs : List Char) : Except Misread (Nat × List Char) := do
  let (sides, rest) ← readNumber cs
  if sides < 2 then
    .error (.rejected .tooFewSides)
  else
    .ok (sides, rest)

/-- Reads a modifier, if one is written. -/
def readModifier : List Char → Except Misread (Modifier × List Char)
  | '+' :: cs => do
      let (operand, rest) ← readNumber cs
      .ok ({ operation := .add, operand := operand }, rest)
  | '-' :: cs => do
      let (operand, rest) ← readNumber cs
      .ok ({ operation := .subtract, operand := operand }, rest)
  | cs =>
      .ok ({}, cs)

/-- Reads one factor and gives the text behind it. -/
def readFactor (cs : List Char) : Except Misread (Factor × List Char) := do
  let (count, rest) ← readCount cs
  match rest with
  | [] =>
      .error (.rejected (.unexpectedEnd (String.ofList cs)))
  | c :: afterD =>
      if c = 'd' then do
        let (sides, rest) ← readSides afterD
        let (modifier, rest) ← readModifier rest
        .ok ({ count := count, sides := sides, modifier := modifier }, rest)
      else
        .error (.rejected (.unexpectedChar "d" (String.ofList rest)))

theorem readNumber_length
    {cs rest : List Char}
    {n : Nat}
    (h : readNumber cs = .ok (n, rest)) :
    rest.length ≤ cs.length := by
  have bound := Text.length_spanDigits_le cs
  simp only [readNumber] at h
  repeat' split at h
  all_goals first
    | contradiction
    | (simp only [Except.ok.injEq, Prod.mk.injEq] at h
       rw [← h.2]
       exact bound)

theorem readCount_length
    {cs rest : List Char}
    {n : Nat}
    (h : readCount cs = .ok (n, rest)) :
    rest.length ≤ cs.length := by
  unfold readCount at h
  split at h
  · cases hn : readNumber cs with
    | error e =>
        simp [hn, bind, Except.bind] at h
    | ok taken =>
        obtain ⟨m, r⟩ := taken
        simp only [hn, bind, Except.bind] at h
        split at h
        · contradiction
        · simp only [Except.ok.injEq, Prod.mk.injEq] at h
          exact h.2 ▸ readNumber_length hn
  · simp only [Except.ok.injEq, Prod.mk.injEq] at h
    exact h.2 ▸ Nat.le_refl _

theorem readSides_length
    {cs rest : List Char}
    {n : Nat}
    (h : readSides cs = .ok (n, rest)) :
    rest.length ≤ cs.length := by
  unfold readSides at h
  cases hn : readNumber cs with
  | error e =>
      simp [hn, bind, Except.bind] at h
  | ok taken =>
      obtain ⟨m, r⟩ := taken
      simp only [hn, bind, Except.bind] at h
      split at h
      · contradiction
      · simp only [Except.ok.injEq, Prod.mk.injEq] at h
        exact h.2 ▸ readNumber_length hn

theorem readModifier_length
    {cs rest : List Char}
    {m : Modifier}
    (h : readModifier cs = .ok (m, rest)) :
    rest.length ≤ cs.length := by
  unfold readModifier at h
  split at h
  case h_3 =>
    simp only [Except.ok.injEq, Prod.mk.injEq] at h
    exact h.2 ▸ Nat.le_refl _
  all_goals
    next digits =>
      cases hn : readNumber digits with
      | error e =>
          simp [hn, bind, Except.bind] at h
      | ok taken =>
          obtain ⟨n, r⟩ := taken
          simp only [hn, bind, Except.bind, Except.ok.injEq, Prod.mk.injEq] at h
          have := readNumber_length hn
          rw [← h.2]
          simp only [List.length_cons]
          omega

theorem readFactor_length
    {cs rest : List Char}
    {f : Factor}
    (h : readFactor cs = .ok (f, rest)) :
    rest.length < cs.length := by
  unfold readFactor at h
  cases hc : readCount cs with
  | error e =>
      simp [hc, bind, Except.bind] at h
  | ok taken =>
      obtain ⟨count, r⟩ := taken
      have countBound := readCount_length hc
      simp only [hc, bind, Except.bind] at h
      cases r with
      | nil =>
          simp at h
      | cons c afterD =>
          simp only at h
          split at h
          · cases hs : readSides afterD with
            | error e =>
                simp [hs] at h
            | ok taken =>
                obtain ⟨sides, r⟩ := taken
                have sidesBound := readSides_length hs
                simp only [hs] at h
                cases hm : readModifier r with
                | error e =>
                    simp [hm] at h
                | ok taken =>
                    obtain ⟨m, r'⟩ := taken
                    have modifierBound := readModifier_length hm
                    simp only [hm, Except.ok.injEq, Prod.mk.injEq] at h
                    rw [← h.2]
                    simp only [List.length_cons] at countBound
                    omega
          · contradiction

/-- Reads a chain of factors joined by `x`, as far as it goes. -/
def readFactors (cs : List Char) : Except Misread (List Factor × List Char) :=
  match _step : readFactor cs with
  | .error e =>
      .error e
  | .ok (factor, 'x' :: rest) => do
      let (factors, rest) ← readFactors rest
      .ok (factor :: factors, rest)
  | .ok (factor, rest) =>
      .ok ([factor], rest)
termination_by cs.length
decreasing_by
  have := readFactor_length _step
  simp only [List.length_cons] at this
  omega

/-- A fault in the first factor is the fault of the chain. -/
theorem readFactors_of_error
    {cs : List Char}
    {misread : Misread}
    (fault : readFactor cs = .error misread) :
    readFactors cs = .error misread := by
  rw [readFactors]
  split <;> simp_all

/-- A factor before an `x` is the first of a chain that goes on behind the `x`. -/
theorem readFactors_of_more
    {cs rest : List Char}
    {factor : Factor}
    (step : readFactor cs = .ok (factor, 'x' :: rest)) :
    readFactors cs =
      (readFactors rest).map fun (factors, rest) => (factor :: factors, rest) := by
  rw [readFactors]
  split
  · simp_all
  · next first behind firstStep =>
      obtain ⟨rfl, rfl⟩ : factor = first ∧ rest = behind := by
        simp_all
      cases readFactors rest <;> rfl
  · simp_all

/-- A factor before anything but an `x` is the last of its chain. -/
theorem readFactors_of_last
    {cs rest : List Char}
    {factor : Factor}
    (step : readFactor cs = .ok (factor, rest))
    (last : rest.head? ≠ some 'x') :
    readFactors cs = .ok ([factor], rest) := by
  rw [readFactors]
  split
  · simp_all
  · next first behind firstStep =>
      rw [step] at firstStep
      simp only [Except.ok.injEq, Prod.mk.injEq] at firstStep
      obtain ⟨-, rfl⟩ := firstStep
      simp at last
  · simp_all

/-- Reads the `E` behind the factors; a second one is left over. -/
def readExplode : List Char → Bool × List Char
  | 'E' :: rest => (true, rest)
  | cs => (false, cs)

/-- Reads a text without blanks at its ends as a dice code. -/
def readCode (cs : List Char) : Except Misread DiceCode := do
  let (factors, rest) ← readFactors cs
  let (explode, rest) := readExplode rest
  if rest = [] then
    .ok { factors := factors, explode := explode }
  else
    .error (.rejected (.trailingInput (String.ofList rest)))

namespace DiceCode

/-- The dice code that a text writes, or the first fault in it. -/
def read? (text : String) : Except Misread DiceCode :=
  readCode (Text.trimChars text.toList)

end DiceCode

end Tabletop
