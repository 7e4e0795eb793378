import Mathlib.Data.List.Basic
import Mathlib.Data.List.Induction
import Mathlib.Tactic.IntervalCases
import Mathlib.Tactic.Linarith

/-!
# Dates of the Gregorian calendar

A date is a year, a month and a day that the month has. It is counted in days
since the epoch and written as `2006-01-02`; both determine the date.
-/

namespace SoaHomework.Calendar

def isLeap (year : Nat) : Bool :=
  year % 4 == 0 && (year % 100 != 0 || year % 400 == 0)

def daysIn (leap : Bool) (month : Nat) : Nat :=
  if month = 2 then (if leap then 29 else 28) else 30 + (month + month / 8) % 2

structure Date where
  year : Nat
  month : Nat
  day : Nat
  month_pos : 1 ≤ month
  month_le : month ≤ 12
  day_pos : 1 ≤ day
  day_le : day ≤ daysIn (isLeap year) month
deriving DecidableEq

theorem Date.ext' {d d' : Date} (hyear : d.year = d'.year) (hmonth : d.month = d'.month)
    (hday : d.day = d'.day) : d = d' := by
  cases d
  cases d'
  simp only [Date.mk.injEq]
  exact ⟨hyear, hmonth, hday⟩

/-! ## Days since the epoch -/

/-- The days from the first day of the year 0 to the first day of `year`. -/
def yearStart (year : Nat) : Nat :=
  365 * year + (year + 3) / 4 - (year + 99) / 100 + (year + 399) / 400

/-- The days of a year before its month. -/
def monthStart (leap : Bool) (month : Nat) : Nat :=
  ((List.range month).tail.map (daysIn leap)).sum

/-- The days since the first of January 1970. -/
def Date.days (d : Date) : Int :=
  yearStart d.year + monthStart (isLeap d.year) d.month + (d.day - 1 : Nat) - 719528

def yearLength (year : Nat) : Nat := if isLeap year then 366 else 365

/-- A quotient that is rounded up grows at the multiples of the divisor. -/
theorem ceil_succ (year period : Nat) (hperiod : 0 < period) :
    (year + 1 + (period - 1)) / period =
      (year + (period - 1)) / period + if year % period = 0 then 1 else 0 := by
  have hsum : year + 1 + (period - 1) = year + (period - 1) + 1 := by omega
  have hdvd : period ∣ year + (period - 1) + 1 ↔ year % period = 0 := by
    have heq : year + (period - 1) + 1 = year + period := by omega
    rw [heq, Nat.dvd_iff_mod_eq_zero, Nat.add_mod_right]
  rw [hsum, Nat.succ_div]
  simp only [hdvd]

theorem yearStart_succ (year : Nat) : yearStart (year + 1) = yearStart year + yearLength year := by
  have hfour := ceil_succ year 4 (by decide)
  have hhundred := ceil_succ year 100 (by decide)
  have hfourHundred := ceil_succ year 400 (by decide)
  have hcentury : (year + 99) / 100 ≤ 365 * year := by omega
  have hleap : yearLength year + (if year % 100 = 0 then 1 else 0) =
      365 + (if year % 4 = 0 then 1 else 0) + (if year % 400 = 0 then 1 else 0) := by
    have h100 : year % 100 = 0 → year % 4 = 0 := by omega
    have h400 : year % 400 = 0 → year % 100 = 0 := by omega
    by_cases hq : year % 4 = 0 <;> by_cases hc : year % 100 = 0 <;>
      by_cases he : year % 400 = 0 <;> simp_all [yearLength, isLeap]
  simp only [Nat.reduceSub] at hfour hhundred hfourHundred
  unfold yearStart
  omega

theorem yearStart_le {year year' : Nat} (h : year < year') :
    yearStart year + yearLength year ≤ yearStart year' := by
  induction year', h using Nat.le_induction with
  | base => exact (yearStart_succ year).ge
  | succ year' _ ih =>
      rw [yearStart_succ]
      omega

theorem monthStart_le (leap : Bool) {month month' : Nat} (hpos : 1 ≤ month) (h : month < month')
    (hle : month' ≤ 12) :
    monthStart leap month + daysIn leap month ≤ monthStart leap month' := by
  have htable : ∀ leap, ∀ month' ≤ 12, ∀ month < month', 1 ≤ month →
      monthStart leap month + daysIn leap month ≤ monthStart leap month' := by
    decide
  exact htable leap month' hle month h hpos

theorem dayOfYear_lt (d : Date) :
    monthStart (isLeap d.year) d.month + (d.day - 1) < yearLength d.year := by
  have htable : ∀ leap, ∀ month ≤ 12, 1 ≤ month →
      monthStart leap month + daysIn leap month ≤ if leap then 366 else 365 := by
    decide
  have hmonth := htable (isLeap d.year) d.month d.month_le d.month_pos
  have hpos := d.day_pos
  have hle := d.day_le
  unfold yearLength
  omega

/-- The years of two dates with one count of days. -/
theorem year_le_of_days {d d' : Date} (h : d.days = d'.days) : d'.year ≤ d.year := by
  by_contra hlt
  have hyear := yearStart_le (Nat.lt_of_not_le hlt)
  have hday := dayOfYear_lt d
  unfold Date.days at h
  omega

theorem month_le_of_days {d d' : Date} (hyear : d.year = d'.year) (h : d.days = d'.days) :
    d'.month ≤ d.month := by
  by_contra hlt
  have hmonth := monthStart_le (isLeap d.year) d.month_pos (Nat.lt_of_not_le hlt) d'.month_le
  have hpos := d.day_pos
  have hle := d.day_le
  unfold Date.days at h
  rw [hyear] at h hmonth hle
  omega

/-- The count of days determines the date. -/
theorem days_injective : Function.Injective Date.days := by
  intro d d' h
  have hyear : d.year = d'.year := (year_le_of_days h.symm).antisymm (year_le_of_days h)
  have hmonth : d.month = d'.month :=
    (month_le_of_days hyear.symm h.symm).antisymm (month_le_of_days hyear h)
  have hday : d.day = d'.day := by
    have hpos := d.day_pos
    have hpos' := d'.day_pos
    unfold Date.days at h
    rw [hyear, hmonth] at h
    omega
  exact Date.ext' hyear hmonth hday

def epoch : Date := ⟨1970, 1, 1, by decide, by decide, by decide, by decide⟩

theorem days_eq_zero_iff (d : Date) : d.days = 0 ↔ d = epoch := by
  have hepoch : epoch.days = 0 := by decide
  constructor
  · intro h
    exact days_injective (h.trans hepoch.symm)
  · rintro rfl
    exact hepoch

/-! ## Dates as texts -/

/-- The last `width` decimal digits of a number. -/
def decimal : Nat → Nat → List Char
  | 0, _ => []
  | width + 1, n => decimal width (n / 10) ++ [(n % 10).digitChar]

/-- The number that decimal digits write. -/
def number (cs : List Char) : Option Nat :=
  cs.foldlM (fun n c => if c.isDigit then some (10 * n + (c.toNat - '0'.toNat)) else none) 0

theorem number_append (cs : List Char) (c : Char) : number (cs ++ [c]) =
    (number cs).bind fun n =>
      if c.isDigit then some (10 * n + (c.toNat - '0'.toNat)) else none := by
  rw [number, List.foldlM_append]
  cases hcs : number cs with
  | none =>
      rw [number] at hcs
      rw [hcs]
      rfl
  | some n =>
      rw [number] at hcs
      rw [hcs]
      simp

theorem digit_digitChar {digit : Nat} (h : digit < 10) :
    digit.digitChar.isDigit = true ∧ digit.digitChar.toNat - '0'.toNat = digit := by
  interval_cases digit <;> decide

theorem digitChar_digit {c : Char} (h : c.isDigit = true) :
    c.toNat - '0'.toNat < 10 ∧ (c.toNat - '0'.toNat).digitChar = c := by
  have hrange : 48 ≤ c.toNat ∧ c.toNat ≤ 57 := by
    simpa [Char.isDigit, UInt32.le_iff_toNat_le] using h
  obtain ⟨hlow, hhigh⟩ := hrange
  have hdigit : ∀ n, 48 ≤ n → n ≤ 57 → n - 48 < 10 ∧ (n - 48).digitChar = Char.ofNat n := by
    intro n hn hn'
    interval_cases n <;> decide
  have hc := hdigit c.toNat hlow hhigh
  rwa [Char.ofNat_toNat] at hc

theorem number_decimal {width n : Nat} (h : n < 10 ^ width) :
    number (decimal width n) = some n := by
  induction width generalizing n with
  | zero =>
      rw [pow_zero, Nat.lt_one_iff] at h
      subst h
      rfl
  | succ width ih =>
      obtain ⟨hdigit, hvalue⟩ := digit_digitChar (Nat.mod_lt n (by decide : 0 < 10))
      have hquotient : n / 10 < 10 ^ width := by
        rw [pow_succ] at h
        omega
      rw [decimal, number_append, ih hquotient, Option.bind_some, if_pos hdigit, hvalue]
      congr 1
      omega

theorem decimal_number {cs : List Char} {n : Nat} (h : number cs = some n) :
    n < 10 ^ cs.length ∧ decimal cs.length n = cs := by
  induction cs using List.reverseRec generalizing n with
  | nil =>
      obtain rfl := Option.some.inj h
      exact ⟨by decide, rfl⟩
  | append_singleton cs c ih =>
      rw [number_append, Option.bind_eq_some_iff] at h
      obtain ⟨m, hm, hc⟩ := h
      obtain ⟨hlt, hcs⟩ := ih hm
      cases hdigit : c.isDigit with
      | false => simp [hdigit] at hc
      | true =>
          obtain ⟨hlast, hchar⟩ := digitChar_digit hdigit
          rw [hdigit, if_pos rfl, Option.some.injEq] at hc
          have hquotient : n / 10 = m := by omega
          have hremainder : n % 10 = c.toNat - '0'.toNat := by omega
          rw [List.length_append, List.length_singleton, pow_succ, decimal, hquotient,
            hremainder, hcs, hchar]
          exact ⟨by omega, rfl⟩

/-- The date with these parts, if there is one. -/
def Date.of? (year month day : Nat) : Option Date :=
  if h : 1 ≤ month ∧ month ≤ 12 ∧ 1 ≤ day ∧ day ≤ daysIn (isLeap year) month then
    some ⟨year, month, day, h.1, h.2.1, h.2.2.1, h.2.2.2⟩
  else none

theorem of?_eq_some {year month day : Nat} {d : Date} :
    Date.of? year month day = some d ↔ d.year = year ∧ d.month = month ∧ d.day = day := by
  constructor
  · intro h
    unfold Date.of? at h
    split at h
    · obtain rfl := Option.some.inj h
      exact ⟨rfl, rfl, rfl⟩
    · cases h
  · rintro ⟨rfl, rfl, rfl⟩
    exact dif_pos ⟨d.month_pos, d.month_le, d.day_pos, d.day_le⟩

/-- Four digits, two digits and two digits, with hyphens between them. -/
def Date.text (d : Date) : String :=
  String.ofList (decimal 4 d.year ++ '-' :: decimal 2 d.month ++ '-' :: decimal 2 d.day)

def Date.parse (text : String) : Option Date :=
  match text.toList with
  | [y₁, y₂, y₃, y₄, h₁, m₁, m₂, h₂, d₁, d₂] =>
      if h₁ = '-' ∧ h₂ = '-' then do
        let year ← number [y₁, y₂, y₃, y₄]
        let month ← number [m₁, m₂]
        let day ← number [d₁, d₂]
        Date.of? year month day
      else none
  | _ => none

theorem daysIn_lt (leap : Bool) (month : Nat) : daysIn leap month < 100 := by
  unfold daysIn
  split
  · cases leap <;> decide
  · omega

/-- A text is read as the date that is written so. -/
theorem parse_eq_some {text : String} {d : Date} :
    Date.parse text = some d ↔ d.year < 10000 ∧ text = d.text := by
  constructor
  · intro h
    unfold Date.parse at h
    split at h
    swap
    · cases h
    next y₁ y₂ y₃ y₄ h₁ m₁ m₂ h₂ d₁ d₂ htext =>
      split at h
      swap
      · cases h
      next hhyphens =>
        obtain ⟨rfl, rfl⟩ := hhyphens
        simp only [Option.bind_eq_bind, Option.bind_eq_some_iff] at h
        obtain ⟨year, hyear, month, hmonth, day, hday, hd⟩ := h
        obtain ⟨rfl, rfl, rfl⟩ := of?_eq_some.mp hd
        have hlt := (decimal_number hyear).1
        have hyear : decimal 4 d.year = _ := (decimal_number hyear).2
        have hmonth : decimal 2 d.month = _ := (decimal_number hmonth).2
        have hday : decimal 2 d.day = _ := (decimal_number hday).2
        refine ⟨by simpa using hlt, ?_⟩
        have hofList : String.ofList text.toList = text := String.ofList_toList
        rw [Date.text, hyear, hmonth, hday, ← hofList, htext]
        rfl
  · rintro ⟨hyear, rfl⟩
    have hmonth : d.month < 10 ^ 2 := d.month_le.trans_lt (by decide)
    have hday : d.day < 10 ^ 2 := d.day_le.trans_lt (daysIn_lt _ _)
    have hy := number_decimal (show d.year < 10 ^ 4 from hyear)
    have hm := number_decimal hmonth
    have hd := number_decimal hday
    simp only [decimal, List.nil_append, List.cons_append] at hy hm hd
    simp only [Date.parse, Date.text, String.toList_ofList, decimal, List.nil_append,
      List.cons_append, hy, hm, hd]
    exact of?_eq_some.mpr ⟨rfl, rfl, rfl⟩

end SoaHomework.Calendar
