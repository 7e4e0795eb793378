import Mathlib.Algebra.BigOperators.Group.List.Lemmas
import Mathlib.Algebra.Order.Field.Rat
import Mathlib.Data.Finset.Card
import Mathlib.Data.List.Sort

/-!
# Aggregate queries

`GROUP BY`, joins, aggregate functions and `row_number()` over lists of rows. A
query does not depend on the order of the rows it reads, and the order of the
groups means nothing; where a result is ordered, it is sorted.
-/

namespace SqlAggregates

variable {α β κ : Type}

/-! ## Groups -/

section Groups

variable [DecidableEq κ]

/-- `GROUP BY key` -/
def groupBy (key : α → κ) (rows : List α) : List (κ × List α) :=
  (rows.map key).dedup.map fun k => (k, rows.filter fun row => decide (key row = k))

/-- `uniqExact(key)` and `countDistinct(key)` -/
def uniqExact (key : α → κ) (rows : List α) : Nat := (rows.map key).dedup.length

theorem groupBy_keys (key : α → κ) (rows : List α) :
    (groupBy key rows).map Prod.fst = (rows.map key).dedup := by
  simp [groupBy, Function.comp_def]

theorem mem_groupBy {key : α → κ} {rows : List α} {k : κ} {members : List α} :
    (k, members) ∈ groupBy key rows ↔
      (∃ row ∈ rows, key row = k) ∧
        members = rows.filter fun row => decide (key row = k) := by
  simp only [groupBy, List.mem_map, List.mem_dedup, Prod.mk.injEq]
  constructor
  · rintro ⟨k', hkey, rfl, rfl⟩
    exact ⟨hkey, rfl⟩
  · rintro ⟨hkey, hmembers⟩
    exact ⟨k, hkey, rfl, hmembers.symm⟩

theorem uniqExact_eq_card (key : α → κ) (rows : List α) :
    uniqExact key rows = (rows.map key).toFinset.card :=
  (List.card_toFinset _).symm

/-- Counting distinct values only depends on which values there are. -/
theorem uniqExact_congr {key : α → κ} {rows : List α} {key' : β → κ} {rows' : List β}
    (h : ∀ k, (∃ row ∈ rows, key row = k) ↔ ∃ row ∈ rows', key' row = k) :
    uniqExact key rows = uniqExact key' rows' := by
  rw [uniqExact_eq_card, uniqExact_eq_card]
  congr 1
  ext k
  simp only [List.mem_toFinset, List.mem_map]
  exact h k

end Groups

/-! ## Joins -/

/-- `INNER JOIN`, already restricted to the columns of the right side -/
def innerJoin (on : α → β → Bool) (left : List α) (right : List β) : List (α × β) :=
  left.flatMap fun a => (right.filter (on a)).map fun b => (a, b)

/-- `LEFT JOIN`: a row without a partner is kept alone. -/
def leftJoin (on : α → β → Bool) (left : List α) (right : List β) : List (α × Option β) :=
  left.flatMap fun a =>
    if right.any (on a) then (right.filter (on a)).map fun b => (a, some b) else [(a, none)]

theorem mem_innerJoin {on : α → β → Bool} {left : List α} {right : List β} {a : α} {b : β} :
    (a, b) ∈ innerJoin on left right ↔ a ∈ left ∧ b ∈ right ∧ on a b = true := by
  simp only [innerJoin, List.mem_flatMap, List.mem_map, List.mem_filter, Prod.mk.injEq]
  constructor
  · rintro ⟨a', ha, b', ⟨hb, hon⟩, rfl, rfl⟩
    exact ⟨ha, hb, hon⟩
  · rintro ⟨ha, hb, hon⟩
    exact ⟨a, ha, b, ⟨hb, hon⟩, rfl, rfl⟩

theorem mem_leftJoin_some {on : α → β → Bool} {left : List α} {right : List β} {a : α} {b : β} :
    (a, some b) ∈ leftJoin on left right ↔ a ∈ left ∧ b ∈ right ∧ on a b = true := by
  simp only [leftJoin, List.mem_flatMap]
  constructor
  · rintro ⟨a', ha, hmem⟩
    split at hmem
    · simp only [List.mem_map, List.mem_filter, Prod.mk.injEq, Option.some.injEq] at hmem
      obtain ⟨b', ⟨hb, hon⟩, rfl, rfl⟩ := hmem
      exact ⟨ha, hb, hon⟩
    · simp at hmem
  · rintro ⟨ha, hb, hon⟩
    refine ⟨a, ha, ?_⟩
    rw [if_pos (List.any_eq_true.mpr ⟨b, hb, hon⟩)]
    exact List.mem_map.mpr ⟨b, List.mem_filter.mpr ⟨hb, hon⟩, rfl⟩

/-- Every row of the left side is kept. -/
theorem exists_mem_leftJoin {on : α → β → Bool} {left : List α} {right : List β} {a : α} :
    (∃ row ∈ leftJoin on left right, row.1 = a) ↔ a ∈ left := by
  simp only [leftJoin, List.mem_flatMap]
  constructor
  · rintro ⟨row, ⟨a', ha, hmem⟩, rfl⟩
    split at hmem
    · obtain ⟨b, _, rfl⟩ := List.mem_map.mp hmem
      exact ha
    · rw [List.mem_singleton.mp hmem]
      exact ha
  · intro ha
    by_cases hany : right.any (on a) = true
    · obtain ⟨b, hb, hon⟩ := List.any_eq_true.mp hany
      refine ⟨(a, some b), ⟨a, ha, ?_⟩, rfl⟩
      rw [if_pos hany]
      exact List.mem_map.mpr ⟨b, List.mem_filter.mpr ⟨hb, hon⟩, rfl⟩
    · refine ⟨(a, none), ⟨a, ha, ?_⟩, rfl⟩
      rw [if_neg hany]
      exact List.mem_singleton.mpr rfl

/-! ## Aggregate functions -/

/-- `avg`, which is `NULL` over no rows -/
def avg (values : List ℚ) : Option ℚ :=
  if values = [] then none else some (values.sum / values.length)

/-- `max(if(p, 1, 0))` -/
def maxFlag (p : α → Bool) (rows : List α) : Nat :=
  (rows.map fun row => if p row then 1 else 0).foldr max 0

/-- `min(value)` of a group -/
def minimum (values : List Nat) : Nat := values.min?.getD 0

theorem maxFlag_eq (p : α → Bool) (rows : List α) :
    maxFlag p rows = if rows.any p then 1 else 0 := by
  unfold maxFlag
  induction rows with
  | nil => rfl
  | cons row rows ih =>
      simp only [List.map_cons, List.foldr_cons, ih, List.any_cons]
      by_cases hrow : p row = true
      · by_cases hrows : rows.any p = true <;> simp [hrow, hrows]
      · by_cases hrows : rows.any p = true <;> simp [hrow, hrows]

theorem minimum_eq_iff {values : List Nat} (h : values ≠ []) {n : Nat} :
    minimum values = n ↔ n ∈ values ∧ ∀ m ∈ values, n ≤ m := by
  unfold minimum
  obtain ⟨least, hleast⟩ := Option.isSome_iff_exists.mp (List.isSome_min?_of_ne_nil h)
  have hspec := List.min?_eq_some_iff.mp hleast
  rw [hleast, Option.getD_some]
  constructor
  · rintro rfl
    exact hspec
  · intro hn
    exact Nat.le_antisymm (hspec.2 n hn.1) (hn.2 least hspec.1)

/-- The average of a flag is the share of the rows that have it. -/
theorem avg_flags (p : α → Bool) (rows : List α) :
    (avg (rows.map fun row => if p row then (1 : ℚ) else 0)).getD 0 =
      (rows.countP p : ℚ) / rows.length := by
  have hsum : ∀ rows : List α,
      (rows.map fun row => if p row then (1 : ℚ) else 0).sum = rows.countP p := by
    intro rows
    induction rows with
    | nil => rfl
    | cons row rows ih =>
        rw [List.map_cons, List.sum_cons, ih, List.countP_cons]
        cases p row with
        | true => simp [add_comm]
        | false => simp
  cases rows with
  | nil => simp [avg]
  | cons row rows =>
      have hne : ((row :: rows).map fun row => if p row then (1 : ℚ) else 0) ≠ [] :=
        List.cons_ne_nil _ _
      simp only [avg, if_neg hne, Option.getD_some, hsum, List.length_map]

/-! ## Ranking -/

section Ranking

variable (le : α → α → Prop) [DecidableRel le]

/-- `row_number() OVER (ORDER BY ...)`, for an order given by `le` -/
def rowNumber (rows : List α) : List (α × Nat) := (rows.insertionSort le).zipIdx 1

/-- The rows `WHERE rank <= n` -/
def ranked (n : Nat) (rows : List α) : List (α × Nat) :=
  (rowNumber le rows).filter fun row => decide (row.2 ≤ n)

theorem ranked_eq (n : Nat) (rows : List α) :
    ranked le n rows = ((rows.insertionSort le).take n).zipIdx 1 := by
  have hfilter : ∀ (sorted : List α) (n start : Nat),
      ((sorted.zipIdx start).filter fun row => decide (row.2 < start + n)) =
        (sorted.take n).zipIdx start := by
    intro sorted
    induction sorted with
    | nil =>
        intro n start
        simp
    | cons row sorted ih =>
        intro n start
        cases n with
        | zero =>
            rw [List.take_zero, List.zipIdx_nil, List.filter_eq_nil_iff]
            intro entry hentry
            have hle := List.le_snd_of_mem_zipIdx hentry
            simp only [decide_eq_true_eq]
            omega
        | succ n =>
            rw [List.zipIdx_cons, List.take_succ_cons, List.zipIdx_cons, List.filter_cons,
              if_pos (by simp), ← ih n (start + 1)]
            congr 1
            apply List.filter_congr
            intro entry _
            simp only [decide_eq_decide]
            omega
  rw [ranked, rowNumber, ← hfilter]
  apply List.filter_congr
  intro entry _
  simp only [decide_eq_decide]
  omega

theorem ranked_length (n : Nat) (rows : List α) : (ranked le n rows).length ≤ n := by
  rw [ranked_eq, List.length_zipIdx, List.length_take]
  exact Nat.min_le_left _ _

theorem ranked_nodup (n : Nat) (rows : List α) : ((ranked le n rows).map Prod.snd).Nodup := by
  rw [ranked_eq, List.zipIdx_map_snd]
  exact List.nodup_range'

theorem mem_of_mem_ranked {n : Nat} {rows : List α} {entry : α × Nat}
    (h : entry ∈ ranked le n rows) : entry.1 ∈ rows ∧ 1 ≤ entry.2 ∧ entry.2 ≤ n := by
  obtain ⟨hmem, hle⟩ := List.mem_filter.mp h
  refine ⟨?_, List.le_snd_of_mem_zipIdx hmem, of_decide_eq_true hle⟩
  exact (List.mem_insertionSort le).mp (List.fst_mem_of_mem_zipIdx hmem)

/-- In a strictly sorted list, a place is the number of elements before it. -/
theorem mem_take_iff {lt : α → α → Prop} [DecidableRel lt] (hasymm : ∀ a b, lt a b → ¬ lt b a)
    {sorted : List α} (h : sorted.Pairwise lt) (n : Nat) (x : α) :
    x ∈ sorted.take n ↔ x ∈ sorted ∧ sorted.countP (fun y => decide (lt y x)) < n := by
  induction sorted generalizing n with
  | nil => simp
  | cons a sorted ih =>
      obtain ⟨hfirst, hrest⟩ := List.pairwise_cons.mp h
      cases n with
      | zero => simp
      | succ n =>
          rw [List.take_succ_cons, List.mem_cons, List.mem_cons, ih hrest, List.countP_cons]
          constructor
          · rintro (rfl | ⟨hmem, hcount⟩)
            · refine ⟨Or.inl rfl, ?_⟩
              have hzero : sorted.countP (fun y => decide (lt y x)) = 0 := by
                rw [List.countP_eq_zero]
                intro y hy
                simpa using hasymm x y (hfirst y hy)
              have hself : ¬ lt x x := fun hlt => hasymm x x hlt hlt
              simp [hzero, hself]
            · refine ⟨Or.inr hmem, ?_⟩
              simp only [hfirst x hmem, decide_true, if_true]
              omega
          · rintro ⟨rfl | hmem, hcount⟩
            · exact Or.inl rfl
            · refine Or.inr ⟨hmem, ?_⟩
              simp only [hfirst x hmem, decide_true, if_true] at hcount
              omega

/-- A row is ranked up to `n` when fewer than `n` rows are before it. -/
theorem exists_mem_ranked {n : Nat} {rows : List α} (htotal : ∀ a b, le a b ∨ le b a)
    (htrans : ∀ a b c, le a b → le b c → le a c) (hnodup : rows.Nodup)
    (hanti : ∀ a ∈ rows, ∀ b ∈ rows, le a b → le b a → a = b) (x : α) :
    (∃ place, (x, place) ∈ ranked le n rows) ↔
      x ∈ rows ∧ rows.countP (fun y => decide (¬ le x y)) < n := by
  have hperm := List.perm_insertionSort le rows
  have hsorted : (rows.insertionSort le).Pairwise fun a b => ¬ le b a := by
    have : Std.Total le := ⟨htotal⟩
    have : IsTrans α le := ⟨htrans⟩
    refine ((List.pairwise_insertionSort le rows).and (hperm.nodup_iff.mpr hnodup)).imp_of_mem ?_
    rintro a b ha hb ⟨hab, hne⟩ hba
    exact hne (hanti a (hperm.mem_iff.mp ha) b (hperm.mem_iff.mp hb) hab hba)
  have hasymm : ∀ a b, ¬ le b a → ¬ ¬ le a b :=
    fun a b hba hab => (htotal a b).elim hab hba
  have htake := mem_take_iff hasymm hsorted n x
  rw [hperm.mem_iff, hperm.countP_eq] at htake
  rw [← htake, ranked_eq]
  constructor
  · rintro ⟨place, hplace⟩
    exact List.fst_mem_of_mem_zipIdx hplace
  · intro hmem
    rw [← List.zipIdx_map_fst 1 ((rows.insertionSort le).take n)] at hmem
    obtain ⟨⟨y, place⟩, hentry, rfl⟩ := List.mem_map.mp hmem
    exact ⟨place, hentry⟩

end Ranking

end SqlAggregates
