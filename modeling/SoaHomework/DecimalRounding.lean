import Mathlib.Algebra.Order.Round
import Mathlib.Tactic.Linarith

/-!
# Rounding to a number of decimals

Numbers with `scale` fractions to the unit (`OnGrid`), and rounding to the
nearest one, halves upwards (`roundTo`). The two parts of an amount on the grid
are rounded independently; their sum is the amount again unless a part lies
half way between two neighbours (`roundTo_add_roundTo_sub`).
-/

set_option linter.unusedSectionVars false

namespace DecimalRounding

variable {α : Type} [Field α] [LinearOrder α] [IsStrictOrderedRing α] [FloorRing α]

theorem round_mono {x y : α} (h : x ≤ y) : round x ≤ round y := by
  rw [round_eq, round_eq]
  exact Int.floor_mono (by linarith)

/-- The parts of an integer, each rounded, add up to it again unless they lie
    half way between two integers. -/
theorem round_add_round_sub (n : ℤ) (x : α) :
    round x + round ((n : α) - x) = n ↔ Int.fract x ≠ 1 / 2 := by
  have hsplit : x = (⌊x⌋ : α) + Int.fract x := (Int.floor_add_fract x).symm
  have hrest : (n : α) - x = ((n - ⌊x⌋ : ℤ) : α) + -Int.fract x := by
    rw [Int.cast_sub]
    linarith
  have hwhole : round x = ⌊x⌋ + round (Int.fract x) := by
    rw [← round_intCast_add, ← hsplit]
  have hnonneg := Int.fract_nonneg x
  have hlt := Int.fract_lt_one x
  rw [hrest, round_intCast_add, hwhole]
  rcases lt_trichotomy (Int.fract x) (1 / 2) with hbelow | hhalf | habove
  · have hdown : round (Int.fract x) = 0 := round_eq_zero_iff.mpr ⟨by linarith, hbelow⟩
    have hup : round (-Int.fract x) = 0 := round_eq_zero_iff.mpr ⟨by linarith, by linarith⟩
    rw [hdown, hup]
    constructor
    · exact fun _ => hbelow.ne
    · intro _
      omega
  · have hdown : round (Int.fract x) = 1 := round_eq_iff.mpr (by
      rw [hhalf, Int.cast_one]
      exact ⟨by linarith, by linarith⟩)
    have hup : round (-Int.fract x) = 0 := round_eq_zero_iff.mpr ⟨by linarith, by linarith⟩
    rw [hdown, hup]
    constructor
    · intro h
      omega
    · exact fun h => absurd hhalf h
  · have hdown : round (Int.fract x) = 1 := round_eq_iff.mpr (by
      rw [Int.cast_one]
      exact ⟨by linarith, by linarith⟩)
    have hup : round (-Int.fract x) = -1 := round_eq_iff.mpr (by
      rw [Int.cast_neg, Int.cast_one]
      exact ⟨by linarith, by linarith⟩)
    rw [hdown, hup]
    constructor
    · exact fun _ => habove.ne'
    · intro _
      omega

/-! ## The grid -/

/-- `x` is a whole number of `1 / scale`. -/
def OnGrid (scale : ℕ) (x : α) : Prop := ∃ n : ℤ, x * scale = n

variable {scale : ℕ} {x y : α}

theorem onGrid_zero : OnGrid scale (0 : α) := ⟨0, by simp⟩

theorem OnGrid.add (hx : OnGrid scale x) (hy : OnGrid scale y) : OnGrid scale (x + y) := by
  obtain ⟨n, hn⟩ := hx
  obtain ⟨m, hm⟩ := hy
  exact ⟨n + m, by rw [add_mul, hn, hm, Int.cast_add]⟩

theorem OnGrid.mul_int (hx : OnGrid scale x) (k : ℤ) : OnGrid scale (x * (k : α)) := by
  obtain ⟨n, hn⟩ := hx
  exact ⟨n * k, by rw [mul_right_comm, hn, Int.cast_mul]⟩

theorem OnGrid.min (hx : OnGrid scale x) (hy : OnGrid scale y) : OnGrid scale (min x y) := by
  rcases min_choice x y with heq | heq
  · rwa [heq]
  · rwa [heq]

theorem onGrid_sum {values : List α} (h : ∀ value ∈ values, OnGrid scale value) :
    OnGrid scale values.sum := by
  induction values with
  | nil => exact onGrid_zero
  | cons value values ih =>
      rw [List.sum_cons]
      exact (h value List.mem_cons_self).add (ih fun x hx => h x (List.mem_cons_of_mem value hx))

/-! ## Rounding to the grid -/

/-- The nearest number on the grid, the upper one of two. -/
def roundTo (scale : ℕ) (x : α) : α := (round (x * scale) : α) / scale

section Positive

variable (hscale : 0 < scale)
include hscale

theorem onGrid_roundTo (x : α) : OnGrid scale (roundTo scale x) := by
  have hne : (scale : α) ≠ 0 := Nat.cast_ne_zero.mpr hscale.ne'
  exact ⟨round (x * scale), by rw [roundTo, div_mul_cancel₀ _ hne]⟩

theorem roundTo_of_onGrid (h : OnGrid scale x) : roundTo scale x = x := by
  have hne : (scale : α) ≠ 0 := Nat.cast_ne_zero.mpr hscale.ne'
  obtain ⟨n, hn⟩ := h
  rw [roundTo, hn, round_intCast, ← hn, mul_div_cancel_right₀ _ hne]

theorem roundTo_mono (h : x ≤ y) : roundTo scale x ≤ roundTo scale y := by
  have hpos : (0 : α) < scale := Nat.cast_pos.mpr hscale
  have hround : round (x * scale) ≤ round (y * scale) :=
    round_mono (mul_le_mul_of_nonneg_right h hpos.le)
  exact div_le_div_of_nonneg_right (Int.cast_le.mpr hround) hpos.le

theorem roundTo_nonneg (h : 0 ≤ x) : 0 ≤ roundTo scale x := by
  have hzero : roundTo scale (0 : α) = 0 := roundTo_of_onGrid hscale onGrid_zero
  rw [← hzero]
  exact roundTo_mono hscale h

/-- Rounding does not pass a number on the grid. -/
theorem roundTo_le (h : x ≤ y) (hy : OnGrid scale y) : roundTo scale x ≤ y := by
  rw [← roundTo_of_onGrid hscale hy]
  exact roundTo_mono hscale h

/-- The two parts of `y`, each rounded, add up to `y` unless they lie half way
    between two numbers on the grid. -/
theorem roundTo_add_roundTo_sub (hy : OnGrid scale y) (x : α) :
    roundTo scale x + roundTo scale (y - x) = y ↔ Int.fract (x * scale) ≠ 1 / 2 := by
  have hne : (scale : α) ≠ 0 := Nat.cast_ne_zero.mpr hscale.ne'
  obtain ⟨n, hn⟩ := hy
  rw [← round_add_round_sub n, roundTo, roundTo, sub_mul, hn, ← add_div, div_eq_iff hne, hn,
    ← Int.cast_add, Int.cast_inj]

end Positive

end DecimalRounding
