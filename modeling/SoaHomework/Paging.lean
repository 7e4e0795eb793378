import Mathlib.Data.List.Flatten
import Mathlib.Data.List.Nodup
import Mathlib.Order.Basic
import Mathlib.Data.List.Perm.Basic

/-!
# Pages of a sequence

A page is a window of fixed size. The pages of one sequence make it up again.
When every page is cut from a sequence of its own, the same elements in another
order, that is certain only as long as one page holds them all.
-/

namespace SoaHomework.Paging

variable {α : Type}

def window (size : Nat) (rows : List α) (page : Nat) : List α :=
  (rows.drop (page * size)).take size

/-- The number of pages: the quotient, rounded up. -/
def pageCount (total size : Nat) : Nat := (total + size - 1) / size

def pages (total size : Nat) (items : Nat → List α) : List α :=
  (List.range (pageCount total size)).flatMap items

theorem pages_congr {total size : Nat} {items items' : Nat → List α}
    (h : ∀ page < pageCount total size, items page = items' page) :
    pages total size items = pages total size items' :=
  List.flatMap_congr fun page hpage => h page (List.mem_range.mp hpage)

theorem flatMap_window (size : Nat) (rows : List α) (count : Nat) :
    (List.range count).flatMap (window size rows) = rows.take (count * size) := by
  induction count with
  | zero => simp
  | succ count ih =>
      rw [List.range_succ, List.flatMap_append, ih, Nat.add_mul, Nat.one_mul, List.take_add]
      simp [window]

theorem le_pageCount_mul (total : Nat) {size : Nat} (h : 0 < size) :
    total ≤ pageCount total size * size := by
  have hdiv := Nat.div_add_mod (total + size - 1) size
  have hmod := Nat.mod_lt (total + size - 1) h
  rw [Nat.mul_comm] at hdiv
  unfold pageCount
  omega

/-- The pages of one sequence. -/
theorem pages_window (rows : List α) {size : Nat} (h : 0 < size) :
    pages rows.length size (window size rows) = rows := by
  rw [pages, flatMap_window, List.take_of_length_le (le_pageCount_mul rows.length h)]

theorem pageCount_le_one {total size : Nat} (h : total ≤ size) : pageCount total size ≤ 1 := by
  rcases Nat.eq_zero_or_pos size with rfl | hpos
  · simp [pageCount]
  · rw [pageCount, Nat.div_le_iff_le_mul_add_pred hpos]
    omega

theorem pageCount_zero {size : Nat} (h : 0 < size) : pageCount 0 size = 0 := by
  rw [pageCount, Nat.div_eq_zero_iff]
  omega

theorem pageCount_pos {total size : Nat} (h : 0 < size) (htotal : 0 < total) :
    0 < pageCount total size := by
  rw [pageCount, Nat.div_pos_iff]
  omega

theorem one_lt_pageCount {total size : Nat} (hsize : 0 < size) (h : size < total) :
    1 < pageCount total size := by
  rw [pageCount, Nat.lt_div_iff_mul_lt hsize]
  omega

/-- The order in which the first element has moved behind `size` others. -/
def moveFirst (size : Nat) : List α → List α
  | [] => []
  | row :: rows => rows.take size ++ row :: rows.drop size

theorem perm_moveFirst (size : Nat) (rows : List α) : (moveFirst size rows).Perm rows := by
  cases rows with
  | nil => exact List.Perm.refl _
  | cons row rows =>
      have hmiddle : (rows.take size ++ row :: rows.drop size).Perm
          (row :: (rows.take size ++ rows.drop size)) := List.perm_middle
      rw [List.take_append_drop] at hmiddle
      exact hmiddle

theorem head_mem_moved (size : Nat) (row : α) (rows : List α) (hsize : 0 < size)
    (h : size ≤ rows.length) : row ∈ window size (moveFirst size (row :: rows)) 1 := by
  have hlength : (rows.take size).length = 1 * size := by
    rw [List.length_take, Nat.one_mul, Nat.min_eq_left h]
  rw [window, moveFirst, ← hlength, List.drop_left]
  obtain ⟨n, rfl⟩ : ∃ n, size = n + 1 := ⟨size - 1, by omega⟩
  exact List.mem_cons_self

/-- Every page is cut from an order of the rows. -/
def Shows (rows : List α) (orders : Nat → List α) : Prop := ∀ page, (orders page).Perm rows

/-- The pages have every row once, whatever the orders are, if and only if there
    is one page. -/
theorem pages_perm_iff {rows : List α} (hrows : rows.Nodup) {size : Nat} (hsize : 0 < size) :
    (∀ orders, Shows rows orders →
      (pages rows.length size fun page => window size (orders page) page).Perm rows) ↔
      rows.length ≤ size := by
  constructor
  · intro h
    by_contra hmany
    cases rows with
    | nil => simp at hmany
    | cons row rows =>
        -- the second page shows the first row again
        let orders : Nat → List α := fun page =>
          if page = 1 then moveFirst size (row :: rows) else row :: rows
        have hshows : Shows (row :: rows) orders := by
          intro page
          by_cases hpage : page = 1
          · simp only [orders, if_pos hpage]
            exact perm_moveFirst size _
          · simp only [orders, if_neg hpage]
            exact List.Perm.refl _
        have hnodup := (h orders hshows).nodup_iff.mpr hrows
        have htwo : (List.range 2).Sublist (List.range (pageCount (row :: rows).length size)) :=
          List.range_sublist.mpr (one_lt_pageCount hsize (Nat.lt_of_not_le hmany))
        have hpages := (htwo.flatMap fun page => window size (orders page) page).nodup hnodup
        have hfirst : row ∈ window size (orders 0) 0 := by
          obtain ⟨n, rfl⟩ : ∃ n, size = n + 1 := ⟨size - 1, by omega⟩
          simp [window, orders]
        have hagain : row ∈ window size (orders 1) 1 := by
          apply head_mem_moved size row rows hsize
          rw [List.length_cons] at hmany
          omega
        rw [show List.range 2 = [0, 1] from rfl, List.flatMap_cons, List.flatMap_cons,
          List.flatMap_nil, List.append_nil] at hpages
        exact (List.disjoint_of_nodup_append hpages) hfirst hagain
  · intro hone orders hshows
    rcases Nat.lt_or_ge 0 rows.length with hpos | hnone
    · have hcount : pageCount rows.length size = 1 :=
        Nat.le_antisymm (pageCount_le_one hone) (pageCount_pos hsize hpos)
      have hlength : (orders 0).length ≤ size := by
        rw [(hshows 0).length_eq]
        exact hone
      simp only [pages, hcount, List.range_one, List.flatMap_singleton, window, Nat.zero_mul,
        List.drop_zero]
      rw [List.take_of_length_le hlength]
      exact hshows 0
    · obtain rfl := List.length_eq_zero_iff.mp (Nat.le_zero.mp hnone)
      simp [pages, pageCount_zero hsize]

end SoaHomework.Paging
