import SoaHomework.FlightCache

/-!
# The keys of searches

The texts of a search are joined with ':' in its key, so that searches for `A:B` to `C`
and for `A` to `B:C` share one. A search none of whose names has a ':' shares its key only
with searches for the same names and date (`SearchFlightsRequest.asked_of_key`), since
each date has a text of its own (`dateKey_inj`).
-/

namespace SoaHomework.FlightCache

/-! ## Dates -/

/-- The year of a day in its era, and the day of that year. -/
theorem yearOfEra_mem {days : Int} (h₀ : 0 ≤ days) (h : days < 146097) :
    let year := (days - days / 1460 + days / 36524 - days / 146096) / 365
    let day := days - (365 * year + year / 4 - year / 100)
    0 ≤ year ∧ year < 400 ∧ 0 ≤ day ∧ day ≤ 366 := by
  intro year day
  have hleap : year / 4 ≤ days / 1460 ∧ days / 1460 ≤ year / 4 + 1 := by omega
  have hcenturies : days / 36524 ≤ year / 100 + days / 146096 ∧ year / 100 ≤ days / 36524 := by
    have hcentury : days / 36524 = 0 ∨ days / 36524 = 1 ∨ days / 36524 = 2 ∨
        days / 36524 = 3 ∨ days / 36524 = 4 := by omega
    rcases hcentury with h | h | h | h | h <;> omega
  omega

theorem civil_inj {date other : Int} (h : civil date = civil other) : date = other := by
  have hdate := yearOfEra_mem (Int.emod_nonneg (date + 719468) (by decide))
    (Int.emod_lt_of_pos (date + 719468) (by decide : (0 : Int) < 146097))
  have hother := yearOfEra_mem (Int.emod_nonneg (other + 719468) (by decide))
    (Int.emod_lt_of_pos (other + 719468) (by decide : (0 : Int) < 146097))
  simp only [civil, Prod.mk.injEq] at h hdate hother
  generalize ((date + 719468) % 146097 - (date + 719468) % 146097 / 1460 +
    (date + 719468) % 146097 / 36524 - (date + 719468) % 146097 / 146096) / 365 = y at *
  generalize ((other + 719468) % 146097 - (other + 719468) % 146097 / 1460 +
    (other + 719468) % 146097 / 36524 - (other + 719468) % 146097 / 146096) / 365 = y' at *
  generalize hd : (date + 719468) % 146097 - (365 * y + y / 4 - y / 100) = d at *
  generalize hd' : (other + 719468) % 146097 - (365 * y' + y' / 4 - y' / 100) = d' at *
  obtain ⟨hyear, hmonth, hday⟩ := h
  have hmonths : (5 * d + 2) / 153 = (5 * d' + 2) / 153 := by omega
  rw [hmonths] at hyear hday
  have hyears : y = y' := by omega
  have hdays : d = d' := by omega
  have heras : (date + 719468) / 146097 = (other + 719468) / 146097 := by omega
  subst hyears
  omega

theorem civil_nonneg (date : Int) : 0 ≤ (civil date).2.1 ∧ 0 ≤ (civil date).2.2 := by
  have hdate := yearOfEra_mem (Int.emod_nonneg (date + 719468) (by decide))
    (Int.emod_lt_of_pos (date + 719468) (by decide : (0 : Int) < 146097))
  simp only [civil] at hdate ⊢
  omega

/-! ## Digits -/

/-- The digits of a number with leading zeros. -/
def digits (width n : Nat) : List Char :=
  List.replicate (width - n.repr.length) '0' ++ Nat.toDigits 10 n

theorem toList_padded (width : Nat) (n : Int) :
    (padded width n).toList = (if n < 0 then ['-'] else []) ++ digits width n.natAbs := by
  rw [padded, String.toList_append, String.toList_append, String.toList_ofList, Nat.toList_repr,
    digits, List.append_assoc]
  split <;> rfl

theorem digits_inj {width n m : Nat} (h : digits width n = digits width m) : n = m := by
  have hvalue := congrArg (fun cs => Nat.ofDigitChars 10 cs 0) h
  simpa only [digits, Nat.ofDigitChars_append, Nat.ofDigitChars_replicate_zero, Nat.mul_zero,
    Nat.ofDigitChars_ten_toDigits] using hvalue

theorem isDigit_of_mem_digits {width n : Nat} {c : Char} (h : c ∈ digits width n) :
    c.isDigit = true := by
  rcases List.mem_append.mp h with hzero | hdigit
  · rw [List.eq_of_mem_replicate hzero]
    rfl
  · exact Nat.isDigit_of_mem_toDigits (by decide) (by decide) hdigit

/-- The parts of a date between its hyphens: before a negative year stands an empty one. -/
def dateParts (date : Int) : List (List Char) :=
  (if (civil date).1 < 0 then [[]] else []) ++
    [digits 4 (civil date).1.natAbs, digits 2 (civil date).2.1.natAbs,
      digits 2 (civil date).2.2.natAbs]

theorem toList_formatDate (date : Int) :
    (formatDate date).toList = ['-'].intercalate (dateParts date) := by
  obtain ⟨hmonth, hday⟩ := civil_nonneg date
  rw [formatDate, dateParts]
  simp only [String.toList_append, toList_padded, not_lt.mpr hmonth, not_lt.mpr hday, if_false]
  split <;> simp [List.intercalate]

theorem splitOn_formatDate (date : Int) :
    (formatDate date).toList.splitOn '-' = dateParts date := by
  rw [toList_formatDate]
  refine List.splitOn_intercalate '-' (fun part hpart hmem => ?_) (by simp [dateParts])
  rcases List.mem_append.mp hpart with hsign | hdigits
  · split at hsign
    · rw [List.mem_singleton.mp hsign] at hmem
      cases hmem
    · cases hsign
  · simp only [List.mem_cons, List.not_mem_nil, or_false] at hdigits
    rcases hdigits with rfl | rfl | rfl <;> exact absurd (isDigit_of_mem_digits hmem) (by decide)

theorem formatDate_inj {date other : Int} (h : formatDate date = formatDate other) :
    date = other := by
  have hparts : dateParts date = dateParts other := by
    rw [← splitOn_formatDate, ← splitOn_formatDate, h]
  obtain ⟨hsign, hdigits⟩ := List.append_inj' hparts rfl
  simp only [List.cons.injEq, and_true] at hdigits
  obtain ⟨hyear, hmonth, hday⟩ := hdigits
  have hsigns : (civil date).1 < 0 ↔ (civil other).1 < 0 := by
    by_cases hd : (civil date).1 < 0 <;> by_cases ho : (civil other).1 < 0 <;>
      simp [hd, ho] at hsign ⊢
  have hyears := digits_inj hyear
  have hmonths := digits_inj hmonth
  have hdays := digits_inj hday
  have hdate := civil_nonneg date
  have hother := civil_nonneg other
  exact civil_inj (Prod.ext (by omega) (Prod.ext (by omega) (by omega)))

/-- A date has only digits and hyphens. -/
theorem mem_formatDate {date : Int} {c : Char} (h : c ∈ (formatDate date).toList) :
    c.isDigit = true ∨ c = '-' := by
  have hpadded : ∀ {width n}, c ∈ (padded width n).toList → c.isDigit = true ∨ c = '-' := by
    intro width n hmem
    rw [toList_padded, List.mem_append] at hmem
    rcases hmem with hsign | hdigit
    · split at hsign
      · exact Or.inr (List.mem_singleton.mp hsign)
      · cases hsign
    · exact Or.inl (isDigit_of_mem_digits hdigit)
  simp only [formatDate, String.toList_append, List.mem_append] at h
  rcases h with (((hyear | hhyphen) | hmonth) | hhyphen) | hday
  · exact hpadded hyear
  · exact Or.inr (List.mem_singleton.mp hhyphen)
  · exact hpadded hmonth
  · exact Or.inr (List.mem_singleton.mp hhyphen)
  · exact hpadded hday

theorem formatDate_ne_any (date : Int) : formatDate date ≠ "any" := by
  intro h
  have ha : 'a' ∈ (formatDate date).toList := h ▸ by decide
  rcases mem_formatDate ha with hdigit | hhyphen
  · exact absurd hdigit (by decide)
  · exact absurd hhyphen (by decide)

theorem dateKey_inj {date other : Option Int} (h : dateKey date = dateKey other) :
    date = other := by
  cases date with
  | none =>
      cases other with
      | none => rfl
      | some date' => exact absurd h.symm (formatDate_ne_any date')
  | some date =>
      cases other with
      | none => exact absurd h (formatDate_ne_any date)
      | some date' => exact congrArg some (formatDate_inj h)

theorem colon_not_mem_dateKey (date : Option Int) : ':' ∉ (dateKey date).toList := by
  intro hmem
  cases date with
  | none => exact absurd hmem (by decide)
  | some date =>
      rcases mem_formatDate hmem with hdigit | hhyphen
      · exact absurd hdigit (by decide)
      · exact absurd hhyphen (by decide)

/-! ## Searches -/

/-- None of the names has a ':'. -/
def SearchFlightsRequest.plain (req : SearchFlightsRequest) : Bool :=
  !req.origin.toList.contains ':' && !req.destination.toList.contains ':'

/-- The texts of the key. -/
def SearchFlightsRequest.texts (req : SearchFlightsRequest) : List (List Char) :=
  [req.origin.toList, req.destination.toList, (dateKey req.date).toList]

theorem SearchFlightsRequest.texts_of_key {req asked : SearchFlightsRequest}
    (h : asked.key = req.key) : [':'].intercalate asked.texts = [':'].intercalate req.texts := by
  have hkeys := congrArg String.toList (CacheKey.search.inj h)
  simpa [texts, List.intercalate] using hkeys

theorem SearchFlightsRequest.splitOn_texts {req : SearchFlightsRequest}
    (hplain : req.plain = true) : ([':'].intercalate req.texts).splitOn ':' = req.texts := by
  simp only [plain, Bool.and_eq_true, Bool.not_eq_true', List.contains_eq_mem,
    decide_eq_false_iff_not] at hplain
  refine List.splitOn_intercalate ':' (fun text htext => ?_) (by simp [texts])
  simp only [texts, List.mem_cons, List.not_mem_nil, or_false] at htext
  rcases htext with rfl | rfl | rfl
  · exact hplain.1
  · exact hplain.2
  · exact colon_not_mem_dateKey req.date

/-- The ':' in a key are the two between its texts and those in the names. -/
theorem SearchFlightsRequest.plain_iff_count (req : SearchFlightsRequest) :
    req.plain = true ↔ ([':'].intercalate req.texts).count ':' = 2 := by
  have hdate := List.count_eq_zero.mpr (colon_not_mem_dateKey req.date)
  simp only [plain, Bool.and_eq_true, Bool.not_eq_true', List.contains_eq_mem,
    decide_eq_false_iff_not, ← List.count_eq_zero, texts, List.intercalate, List.intersperse,
    List.flatten_cons, List.flatten_nil, List.count_append, List.count_nil,
    List.count_singleton_self, hdate]
  omega

/-- A search with the key of a plain one asks for the same flights. -/
theorem SearchFlightsRequest.asked_of_key {req asked : SearchFlightsRequest}
    (hplain : req.plain = true) (h : asked.key = req.key) :
    asked.origin = req.origin ∧ asked.destination = req.destination ∧ asked.date = req.date := by
  have hjoined := texts_of_key h
  have hasked : asked.plain = true := by
    rw [plain_iff_count, hjoined, ← plain_iff_count]
    exact hplain
  have htexts : asked.texts = req.texts := by
    rw [← splitOn_texts hasked, ← splitOn_texts hplain, hjoined]
  simp only [texts, List.cons.injEq, String.toList_inj, and_true] at htexts
  obtain ⟨horigin, hdestination, hdate⟩ := htexts
  exact ⟨horigin, hdestination, dateKey_inj hdate⟩

end SoaHomework.FlightCache
