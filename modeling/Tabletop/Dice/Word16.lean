namespace Tabletop

/-!
# Narrowing to 16 bits

Results are signed 16-bit numbers: of all integers that agree with the exact
result modulo 65536, the one from -32768 to 32767. `narrow_mul` says that it
makes no difference when the factors of a product are narrowed first.
-/

/-- The signed 16-bit number that agrees with an integer modulo 65536. -/
def narrow (value : Int) : Int :=
  value.bmod 65536

/-- Whether an integer is a signed 16-bit number. -/
def fitsWord (value : Int) : Prop :=
  -32768 ≤ value ∧ value ≤ 32767

instance (value : Int) : Decidable (fitsWord value) :=
  inferInstanceAs (Decidable (_ ∧ _))

theorem narrow_fits (value : Int) : fitsWord (narrow value) := by
  unfold fitsWord narrow
  rw [Int.bmod_def]
  split <;> omega

theorem narrow_eq_self_iff {value : Int} :
    narrow value = value ↔ fitsWord value := by
  unfold fitsWord narrow
  rw [Int.bmod_def]
  split <;> omega

theorem narrow_mul (a b : Int) :
    narrow (narrow a * narrow b) = narrow (a * b) := by
  unfold narrow
  rw [Int.bmod_mul_bmod, Int.mul_bmod_bmod]

end Tabletop
