namespace Tabletop

/-!
# Decimal numerals

Runs of the ten digits `0` to `9` and the numbers that they write. Other
characters that Unicode calls digits are not digits here. A numeral that is too
long is neither read nor written.
-/

/--
The most digits of a numeral that is converted. Zeros at the front count where a
numeral is read; a minus sign does not count where one is written.
-/
def digitLimit : Nat := 4300

namespace Text

/-- Splits a text after its longest run of digits at the front. -/
def spanDigits (cs : List Char) : List Char × List Char :=
  (cs.takeWhile Char.isDigit, cs.dropWhile Char.isDigit)

/-- The number that a run of digits writes. -/
def numeralValue (digits : List Char) : Nat :=
  Nat.ofDigitChars 10 digits 0

/-- The digits of a run that are left when the zeros at its front are dropped. -/
def significant (digits : List Char) : List Char :=
  digits.dropWhile (· = '0')

/-- The shortest numeral of a natural number. -/
def numeral (n : Nat) : List Char :=
  Nat.toDigits 10 n

/-- The shortest numeral of an integer, with a minus sign in front of a negative one. -/
def signedNumeral : Int → List Char
  | .ofNat n =>
      numeral n
  | .negSucc n =>
      '-' :: numeral (n + 1)

/-- The shortest numeral of an integer as a string. -/
def showInt (i : Int) : String :=
  String.ofList (signedNumeral i)

/-- Whether the numeral of an integer is short enough to be written. -/
def Writable (i : Int) : Prop :=
  (numeral i.natAbs).length ≤ digitLimit

instance (i : Int) : Decidable (Writable i) :=
  inferInstanceAs (Decidable (_ ≤ _))

/-- What is said of a number that is not written. -/
def unwritableMessage : String :=
  s!"Exceeds the limit ({digitLimit} digits) for integer string conversion; " ++
    "use sys.set_int_max_str_digits() to increase the limit"

theorem spanDigits_append (cs : List Char) :
    (spanDigits cs).1 ++ (spanDigits cs).2 = cs :=
  List.takeWhile_append_dropWhile

theorem numeralValue_numeral (n : Nat) :
    numeralValue (numeral n) = n :=
  Nat.ofDigitChars_ten_toDigits

/-- What follows the run of digits is never longer than the text. -/
theorem length_spanDigits_le (cs : List Char) :
    (spanDigits cs).2.length ≤ cs.length := by
  have h := congrArg List.length (spanDigits_append cs)
  simp only [List.length_append] at h
  omega

/-- What is nearer to zero than a number that is written is written as well. -/
theorem Writable.mono
    {i bound : Int}
    (writable : Writable bound)
    (nearer : i.natAbs ≤ bound.natAbs) :
    Writable i := by
  unfold Writable numeral at writable ⊢
  rw [Nat.length_toDigits_le_iff (by decide) (by decide)] at writable ⊢
  exact Nat.lt_of_le_of_lt nearer writable

end Text

end Tabletop
