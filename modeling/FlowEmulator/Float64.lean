import Mathlib.Algebra.Group.Nat.Defs
import Mathlib.Data.Nat.Log

/-!
Natural numbers rounded to 53 significant bits, to nearest and ties to even, as a
conversion to double precision rounds them. Rounding keeps the order, and changes
nothing below 2^53.
-/
namespace FlowEmulator.Float64

/-- The bits of a number beyond the 53 that are kept. -/
def excess (n : Nat) : Nat := Nat.log 2 n - 52

/-- A quotient with the rest that was cut off, rounded to nearest and ties to even. -/
def roundQuotient (quotient rest unit : Nat) : Nat :=
  if 2 * rest < unit ∨ (2 * rest = unit ∧ quotient % 2 = 0) then quotient else quotient + 1

/-- The double nearest to a number, as a number. -/
def float64 (n : Nat) : Nat :=
  let unit := 2 ^ excess n
  roundQuotient (n / unit) (n % unit) unit * unit

theorem roundQuotient_bounds (quotient rest unit : Nat) :
    quotient ≤ roundQuotient quotient rest unit ∧ roundQuotient quotient rest unit ≤ quotient + 1 := by
  unfold roundQuotient
  split <;> omega

theorem roundQuotient_mono {quotient quotient' rest rest' unit : Nat}
    (ordered : quotient < quotient' ∨ (quotient = quotient' ∧ rest ≤ rest')) :
    roundQuotient quotient rest unit ≤ roundQuotient quotient' rest' unit := by
  rcases ordered with below | ⟨rfl,rests⟩
  · exact (roundQuotient_bounds quotient rest unit).2.trans
      (Nat.succ_le_of_lt below |>.trans (roundQuotient_bounds quotient' rest' unit).1)
  · unfold roundQuotient
    split
    · split <;> omega
    · next up =>
      rw [if_neg (by omega)]

theorem excess_mono {n m : Nat} (ordered : n ≤ m) : excess n ≤ excess m :=
  Nat.sub_le_sub_right (Nat.log_mono_right ordered) 52

/-- A rounded number stays within its power of two. -/
theorem float64_le (n : Nat) : float64 n ≤ 2 ^ (excess n + 53) := by
  have small : n < 2 ^ (excess n + 53) := by
    refine (Nat.lt_pow_succ_log_self (by decide) n).trans_le (Nat.pow_le_pow_right (by decide) ?_)
    unfold excess
    omega
  have quotient : n / 2 ^ excess n < 2 ^ 53 := by
    rw [Nat.div_lt_iff_lt_mul (Nat.two_pow_pos _),← Nat.pow_add,Nat.add_comm]
    exact small
  show roundQuotient _ _ _ * 2 ^ excess n ≤ _
  rw [Nat.pow_add,Nat.mul_comm (2 ^ excess n)]
  exact Nat.mul_le_mul_right _ ((roundQuotient_bounds _ _ _).2.trans quotient)

/-- A number with excess bits rounds to at least its leading power of two. -/
theorem le_float64 {n : Nat} (long : 0 < excess n) : 2 ^ (excess n + 52) ≤ float64 n := by
  have positive : n ≠ 0 := by
    rintro rfl
    simp [excess] at long
  have large : 2 ^ (excess n + 52) ≤ n := by
    refine (Nat.pow_le_pow_right (by decide) ?_).trans (Nat.pow_log_le_self 2 positive)
    unfold excess at long ⊢
    omega
  have quotient : 2 ^ 52 ≤ n / 2 ^ excess n := by
    rw [Nat.le_div_iff_mul_le (Nat.two_pow_pos _),← Nat.pow_add,Nat.add_comm]
    exact large
  show _ ≤ roundQuotient _ _ _ * 2 ^ excess n
  rw [Nat.pow_add,Nat.mul_comm (2 ^ excess n)]
  exact Nat.mul_le_mul_right _ (quotient.trans (roundQuotient_bounds _ _ _).1)

theorem float64_mono : Monotone float64 := by
  intro n m ordered
  rcases Nat.eq_or_lt_of_le (excess_mono ordered) with same | less
  · show roundQuotient _ _ _ * 2 ^ excess n ≤ roundQuotient _ _ _ * 2 ^ excess m
    rw [← same]
    refine Nat.mul_le_mul_right _ (roundQuotient_mono ?_)
    have quotients : n / 2 ^ excess n ≤ m / 2 ^ excess n := Nat.div_le_div_right ordered
    rcases Nat.eq_or_lt_of_le quotients with equal | below
    · refine .inr ⟨equal,?_⟩
      have left := Nat.div_add_mod n (2 ^ excess n)
      have right := Nat.div_add_mod m (2 ^ excess n)
      rw [← equal] at right
      omega
    · exact .inl below
  · calc float64 n ≤ 2 ^ (excess n + 53) := float64_le n
      _ ≤ 2 ^ (excess m + 52) := Nat.pow_le_pow_right (by decide) (by omega)
      _ ≤ float64 m := le_float64 (by omega)

/-- Numbers below 2^53 are doubles. -/
theorem float64_exact {n : Nat} (small : n < 2 ^ 53) : float64 n = n := by
  have none : excess n = 0 := by
    have bits : Nat.log 2 n < 53 := Nat.log_lt_of_lt_pow' (by decide) small
    unfold excess
    omega
  show roundQuotient _ _ _ * 2 ^ excess n = n
  rw [none]
  simp [roundQuotient,Nat.mod_one]

end FlowEmulator.Float64
