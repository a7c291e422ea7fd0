import Mathlib.Algebra.Group.Nat.Defs
import Tabletop.Code.Reader

namespace Tabletop

/-!
# Written numbers

A number in a dice code is a maximal run of digits, with any zeros in front and
a value of at most 255. `readNumber_reading` says what reading a number can come
to, in the form that all parts of a code share. A run is refused for its length
only if its value is too large anyway: `three_lt_length_significant_iff`. A run
of mostly zeros can still be too long to be converted, so a bound on the runs of
a text is needed to say that every run of a small value is read.
-/

namespace Text

/-- Whether all characters of a text are digits. -/
def IsDigits (cs : List Char) : Prop :=
  ∀ c ∈ cs, c.isDigit = true

instance (cs : List Char) : Decidable (IsDigits cs) :=
  decidable_of_iff (cs.all Char.isDigit = true) List.all_eq_true

/-- Whether a text goes on with something other than a digit, or ends. -/
def NoDigitAhead (cs : List Char) : Prop :=
  ∀ c ∈ cs.head?, c.isDigit = false

/-- The maximal run of digits at the front of a text, and the text behind it. -/
structure LeadingRun (cs run rest : List Char) : Prop where
  split : cs = run ++ rest
  digits : IsDigits run
  ends : NoDigitAhead rest

/--
Whether no run of digits anywhere in a text is longer than the limit. Runs that
are not maximal lie within maximal ones, so they make no difference.
-/
def DigitRunsWithin
    (limit : Nat)
    (cs : List Char) :
    Prop :=
  ∀ run, run <:+: cs → IsDigits run → run.length ≤ limit

@[simp] theorem noDigitAhead_nil : NoDigitAhead [] := by
  intro c member
  cases member

@[simp] theorem noDigitAhead_cons
    {c : Char}
    {rest : List Char} :
    NoDigitAhead (c :: rest) ↔ c.isDigit = false := by
  simp [NoDigitAhead]

theorem noDigitAhead_iff {cs : List Char} :
    NoDigitAhead cs ↔ cs.head?.any Char.isDigit = false := by
  cases cs <;> simp [NoDigitAhead]

theorem leadingRun_nil
    {cs : List Char}
    (ends : NoDigitAhead cs) :
    LeadingRun cs [] cs where
  split := rfl
  digits _ member := nomatch member
  ends := ends

namespace DigitRunsWithin

/-- A part of a text has no longer runs than the text. -/
theorem of_infix
    {limit : Nat}
    {part cs : List Char}
    (short : DigitRunsWithin limit cs)
    (within : part <:+: cs) :
    DigitRunsWithin limit part := by
  intro run runWithin digits
  exact short run (runWithin.trans within) digits

theorem of_length_le
    {limit : Nat}
    {cs : List Char}
    (short : cs.length ≤ limit) :
    DigitRunsWithin limit cs := by
  intro run within _
  exact Nat.le_trans within.length_le short

end DigitRunsWithin

theorem leadingRun_spanDigits (cs : List Char) :
    LeadingRun cs (spanDigits cs).1 (spanDigits cs).2 where
  split := (spanDigits_append cs).symm
  digits := List.all_eq_true.mp List.all_takeWhile
  ends := by
    intro c ahead
    have first := List.head?_dropWhile_not Char.isDigit cs
    have ahead : (cs.dropWhile Char.isDigit).head? = some c := ahead
    rw [ahead] at first
    exact first

namespace LeadingRun

variable {cs run rest : List Char}

theorem spanDigits_eq (leading : LeadingRun cs run rest) :
    spanDigits cs = (run, rest) := by
  rcases leading with ⟨rfl, digits, ends⟩
  unfold spanDigits
  rw [List.takeWhile_append_of_pos digits, List.dropWhile_append_of_pos digits]
  cases rest with
  | nil =>
      simp
  | cons c behind =>
      have notDigit : c.isDigit = false :=
        noDigitAhead_cons.mp ends
      simp [notDigit]

/-- A text has only one leading run. -/
theorem unique
    {otherRun otherRest : List Char}
    (leading : LeadingRun cs run rest)
    (other : LeadingRun cs otherRun otherRest) :
    run = otherRun ∧ rest = otherRest := by
  have same := leading.spanDigits_eq.symm.trans other.spanDigits_eq
  exact Prod.mk.inj same

theorem run_infix (leading : LeadingRun cs run rest) :
    run <:+: cs := by
  rw [leading.split]
  exact (List.prefix_append run rest).isInfix

theorem rest_infix (leading : LeadingRun cs run rest) :
    rest <:+: cs := by
  rw [leading.split]
  exact (List.suffix_append run rest).isInfix

/-- In a text with bounded runs the leading run is bounded. -/
theorem length_le
    {limit : Nat}
    (leading : LeadingRun cs run rest)
    (short : DigitRunsWithin limit cs) :
    run.length ≤ limit :=
  short run leading.run_infix leading.digits

end LeadingRun

private theorem digit_le_nine
    {c : Char}
    (digit : c.isDigit = true) :
    c.toNat - '0'.toNat ≤ 9 := by
  obtain ⟨-, high⟩ := Char.isDigit_iff_toNat.mp digit
  have nine : '9'.toNat = '0'.toNat + 9 := rfl
  omega

private theorem one_le_digit
    {c : Char}
    (digit : c.isDigit = true)
    (notZero : c ≠ '0') :
    1 ≤ c.toNat - '0'.toNat := by
  obtain ⟨low, -⟩ := Char.isDigit_iff_toNat.mp digit
  have different : c.toNat ≠ '0'.toNat := by
    intro same
    exact notZero (Char.toNat_inj.mp same)
  omega

/-- The first digit counts as often as the place it stands at says. -/
theorem numeralValue_cons
    (c : Char)
    (digits : List Char) :
    numeralValue (c :: digits) =
      10 ^ digits.length * (c.toNat - '0'.toNat) + numeralValue digits := by
  unfold numeralValue
  rw [Nat.ofDigitChars_cons, Nat.ofDigitChars_eq_ofDigitChars_zero]
  simp

/-- The number of digits bounds the value of a run. -/
theorem numeralValue_lt
    {digits : List Char}
    (areDigits : IsDigits digits) :
    numeralValue digits < 10 ^ digits.length := by
  induction digits with
  | nil =>
      decide
  | cons c rest inductionHypothesis =>
      have restBound :=
        inductionHypothesis fun d member => areDigits d (.tail c member)
      have first := digit_le_nine (areDigits c (.head rest))
      rw [numeralValue_cons, List.length_cons, Nat.pow_succ]
      have scaled := Nat.mul_le_mul_left (10 ^ rest.length) first
      omega

theorem numeralValue_significant (digits : List Char) :
    numeralValue (significant digits) = numeralValue digits := by
  induction digits with
  | nil =>
      rfl
  | cons c rest inductionHypothesis =>
      by_cases zero : c = '0'
      · subst zero
        rw [numeralValue_cons]
        simpa [significant] using inductionHypothesis
      · simp [significant, zero]

theorem isDigits_zeros
    {zeros : Nat}
    {digits : List Char}
    (areDigits : IsDigits digits) :
    IsDigits (List.replicate zeros '0' ++ digits) := by
  intro c member
  rcases List.mem_append.mp member with isZero | isDigit
  · rw [List.eq_of_mem_replicate isZero]
    decide
  · exact areDigits c isDigit

/-- Zeros in front of a run change nothing of its value. -/
theorem numeralValue_zeros
    (zeros : Nat)
    (digits : List Char) :
    numeralValue (List.replicate zeros '0' ++ digits) = numeralValue digits := by
  have zerosDropped :
      significant (List.replicate zeros '0' ++ digits) = significant digits :=
    List.dropWhile_append_of_pos (by simp)
  rw [← numeralValue_significant, zerosDropped, numeralValue_significant]

theorem pow_le_numeralValue_cons
    {c : Char}
    {rest : List Char}
    (digit : c.isDigit = true)
    (notZero : c ≠ '0') :
    10 ^ rest.length ≤ numeralValue (c :: rest) := by
  rw [numeralValue_cons]
  have first := one_le_digit digit notZero
  have scaled := Nat.mul_le_mul_left (10 ^ rest.length) first
  omega

/-- A run has more than three significant digits exactly if its value has. -/
theorem three_lt_length_significant_iff
    {digits : List Char}
    (areDigits : IsDigits digits) :
    3 < (significant digits).length ↔ 1000 ≤ numeralValue digits := by
  have significantDigits : IsDigits (significant digits) :=
    fun d member => areDigits d ((List.dropWhile_sublist _).subset member)
  rw [← numeralValue_significant]
  constructor
  · intro long
    cases shape : significant digits with
    | nil =>
        simp [shape] at long
    | cons c rest =>
        have notZero : c ≠ '0' := by
          have first := List.head?_dropWhile_not (· = '0') digits
          unfold significant at shape
          rw [shape] at first
          simpa using first
        have digit : c.isDigit = true :=
          significantDigits c (by simp [shape])
        have threePlaces : 3 ≤ rest.length := by
          simp only [shape, List.length_cons] at long
          omega
        calc
          1000 = 10 ^ 3 := rfl
          _ ≤ 10 ^ rest.length := Nat.pow_le_pow_right (by decide) threePlaces
          _ ≤ numeralValue (c :: rest) := pow_le_numeralValue_cons digit notZero
  · intro large
    apply Nat.lt_of_not_le
    intro few
    have bound := numeralValue_lt significantDigits
    have places : 10 ^ (significant digits).length ≤ 10 ^ 3 :=
      Nat.pow_le_pow_right (by decide) few
    omega

end Text

/-- A number from 0 to 255 as it is written, with any zeros in front. -/
structure WrittenNumber where
  digits : List Char
  nonempty : digits ≠ []
  areDigits : Text.IsDigits digits
  inRange : Text.numeralValue digits ≤ greatestNumber

namespace WrittenNumber

/-- The number that is written. -/
def value (n : WrittenNumber) : Nat :=
  Text.numeralValue n.digits

theorem eq_of_digits
    {m n : WrittenNumber}
    (same : m.digits = n.digits) :
    m = n := by
  cases m
  cases n
  cases same
  rfl

theorem digitAhead
    (n : WrittenNumber)
    (rest : List Char) :
    (n.digits ++ rest).head?.any Char.isDigit = true := by
  cases shape : n.digits with
  | nil =>
      exact absurd shape n.nonempty
  | cons c behind =>
      have digit : c.isDigit = true :=
        n.areDigits c (by simp [shape])
      simpa using digit

theorem leadingRun
    (n : WrittenNumber)
    {rest : List Char}
    (ends : Text.NoDigitAhead rest) :
    Text.LeadingRun (n.digits ++ rest) n.digits rest where
  split := rfl
  digits := n.areDigits
  ends := ends

/-- Where two written numbers end before the same text, they are the same. -/
theorem append_inj
    {m n : WrittenNumber}
    {rest other : List Char}
    (same : m.digits ++ rest = n.digits ++ other)
    (ends : Text.NoDigitAhead rest)
    (otherEnds : Text.NoDigitAhead other) :
    m = n ∧ rest = other := by
  have leading := m.leadingRun ends
  rw [same] at leading
  obtain ⟨digits, behind⟩ := leading.unique (n.leadingRun otherEnds)
  exact ⟨eq_of_digits digits, behind⟩

end WrittenNumber

/--
Everything that reading a part of a code at the front of a text can come to: the
value of a spelling, the blame of a fault, or a run of digits that is too long
to be converted.
-/
inductive PartReading
    {σ α : Type}
    (cs : List Char)
    (value : σ → α)
    (Spelled : σ → List Char → Prop)
    (Fault : CodeError → Prop) :
    Except Misread (α × List Char) → Prop where
  | read
      (spelling : σ)
      {rest : List Char}
      (spelled : Spelled spelling rest) :
      PartReading cs value Spelled Fault (.ok (value spelling, rest))
  | fault
      {error : CodeError}
      (fault : Fault error) :
      PartReading cs value Spelled Fault (.error (.rejected error))
  | oversized
      {run : List Char}
      (within : run <:+: cs)
      (digits : Text.IsDigits run)
      (long : digitLimit < run.length) :
      PartReading cs value Spelled Fault (.error (.oversized run.length))

namespace PartReading

variable {σ τ α β : Type}
variable {cs : List Char}
variable {value : σ → α} {Spelled : σ → List Char → Prop} {Fault : CodeError → Prop}
variable {whole : τ → β} {WholeSpelled : τ → List Char → Prop} {WholeFault : CodeError → Prop}
variable {result : Except Misread (α × List Char)}

/-- What reading a part behind a text can come to is what reading it in the text can. -/
theorem widen
    {part : List Char}
    (reading : PartReading part value Spelled Fault result)
    (within : part <:+: cs) :
    PartReading cs value Spelled Fault result := by
  cases reading with
  | read spelling spelled =>
      exact .read spelling spelled
  | fault fault =>
      exact .fault fault
  | oversized runWithin digits long =>
      exact .oversized (runWithin.trans within) digits long

/-- Reading goes on behind a part that is spelled, and ends with the fault of a faulty one. -/
theorem andThen
    {next : α × List Char → Except Misread (β × List Char)}
    (begins : PartReading cs value Spelled Fault result)
    (fails : ∀ {error}, Fault error → WholeFault error)
    (continues :
      ∀ spelling rest,
        Spelled spelling rest →
        PartReading cs whole WholeSpelled WholeFault (next (value spelling, rest))) :
    PartReading cs whole WholeSpelled WholeFault (result >>= next) := by
  cases begins with
  | @read spelling rest spelled =>
      exact continues spelling rest spelled
  | fault fault =>
      exact .fault (fails fault)
  | oversized within digits long =>
      exact .oversized within digits long

theorem map
    {change : α × List Char → β × List Char}
    (begins : PartReading cs value Spelled Fault result)
    (fails : ∀ {error}, Fault error → WholeFault error)
    (continues :
      ∀ spelling rest,
        Spelled spelling rest →
        PartReading cs whole WholeSpelled WholeFault (.ok (change (value spelling, rest)))) :
    PartReading cs whole WholeSpelled WholeFault (result.map change) := by
  have asBind : result.map change = result >>= fun taken => .ok (change taken) := by
    cases result <;> rfl
  rw [asBind]
  exact begins.andThen fails continues

end PartReading

/-- The faults where a number is expected. -/
inductive NumberFault (cs : List Char) : CodeError → Prop where
  | missing
      (ends : Text.NoDigitAhead cs) :
      NumberFault cs (.badNumber "")
  | tooLarge
      {run rest : List Char}
      (leading : Text.LeadingRun cs run rest)
      (large : greatestNumber < Text.numeralValue run) :
      NumberFault cs (.badNumber (String.ofList run))

theorem readNumber_reading (cs : List Char) :
    PartReading cs WrittenNumber.value
      (fun n rest => Text.LeadingRun cs n.digits rest)
      (NumberFault cs)
      (readNumber cs) := by
  have leading := Text.leadingRun_spanDigits cs
  have lengthTest := Text.three_lt_length_significant_iff leading.digits
  revert leading lengthTest
  unfold readNumber
  generalize Text.spanDigits cs = taken
  rcases taken with ⟨run, rest⟩
  intro leading lengthTest
  simp only at leading lengthTest ⊢
  by_cases empty : run = []
  · subst empty
    have whole : cs = rest := leading.split
    rw [if_pos rfl]
    exact .fault (.missing (whole ▸ leading.ends))
  rw [if_neg empty]
  by_cases many : 3 < (Text.significant run).length
  · rw [if_pos many]
    have large : greatestNumber < Text.numeralValue run :=
      Nat.lt_of_lt_of_le (by decide) (lengthTest.mp many)
    exact .fault (.tooLarge leading large)
  rw [if_neg many]
  by_cases long : digitLimit < run.length
  · rw [if_pos long]
    exact .oversized leading.run_infix leading.digits long
  rw [if_neg long]
  by_cases large : greatestNumber < Text.numeralValue run
  · rw [if_pos large]
    exact .fault (.tooLarge leading large)
  · rw [if_neg large]
    let n : WrittenNumber :=
      ⟨run, empty, leading.digits, Nat.le_of_not_lt large⟩
    exact .read n leading

section

variable {cs rest : List Char}

/-- A written number that is not too long to be converted is read. -/
theorem readNumber_written
    {n : WrittenNumber}
    (leading : Text.LeadingRun cs n.digits rest)
    (short : n.digits.length ≤ digitLimit) :
    readNumber cs = .ok (n.value, rest) := by
  have few : ¬ 3 < (Text.significant n.digits).length := by
    rw [Text.three_lt_length_significant_iff n.areDigits]
    have small : n.value < 1000 := Nat.lt_of_le_of_lt n.inRange (by decide)
    exact Nat.not_le.mpr small
  simp [readNumber, leading.spanDigits_eq, n.nonempty, few, Nat.not_lt.mpr short,
    Nat.not_lt.mpr n.inRange, WrittenNumber.value]

/-- Where a number is faulty and not too long to be converted, the fault is blamed. -/
theorem readNumber_of_fault
    {error : CodeError}
    (fault : NumberFault cs error)
    (short : Text.DigitRunsWithin digitLimit cs) :
    readNumber cs = .error (.rejected error) := by
  cases fault with
  | missing ends =>
      simp [readNumber, (Text.leadingRun_nil ends).spanDigits_eq]
  | @tooLarge run rest leading large =>
      have notEmpty : run ≠ [] := by
        rintro rfl
        exact absurd large (by decide)
      simp [readNumber, leading.spanDigits_eq, notEmpty, large,
        Nat.not_lt.mpr (leading.length_le short)]

end

end Tabletop
