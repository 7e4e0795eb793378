import Mathlib.Data.List.Basic

/-!
# Tables that replace rows

A replacing table keeps the rows in the order in which they were inserted. Rows
are the same when their sorting keys are equal, and `FINAL` reads, of the rows
that are the same, the one with the largest version, or the last of several
such.
-/

namespace ReplacingTable

variable {α : Type} {same : α → α → Bool} {version : α → Nat}

variable (same version) in
/-- `FROM ... FINAL` -/
def final : List α → List α
  | [] => []
  | row :: rows =>
      if rows.any fun later => same row later && decide (version row ≤ version later) then
        final rows
      else row :: (final rows).filter fun later => !same row later

/-- Nothing is replaced in a table whose rows have different keys. -/
theorem final_eq_self {rows : List α} (h : rows.Pairwise fun a b => same a b = false) :
    final same version rows = rows := by
  induction rows with
  | nil => rfl
  | cons row rows ih =>
      obtain ⟨hfirst, hrest⟩ := List.pairwise_cons.mp h
      have hany : (rows.any fun later =>
          same row later && decide (version row ≤ version later)) = false := by
        rw [List.any_eq_false]
        intro later hlater
        simp [hfirst later hlater]
      rw [final, if_neg (by simp [hany]), ih hrest, List.filter_eq_self.mpr]
      intro later hlater
      simp [hfirst later hlater]

/-- A condition on the key may be checked before or after the replacement. -/
theorem filter_final {p : α → Bool} (h : ∀ a b, same a b = true → p a = p b) (rows : List α) :
    (final same version rows).filter p = final same version (rows.filter p) := by
  induction rows with
  | nil => rfl
  | cons row rows ih =>
      by_cases hany : (rows.any fun later =>
          same row later && decide (version row ≤ version later)) = true
      · rw [final, if_pos hany, ih]
        by_cases hp : p row = true
        · have hany' : ((rows.filter p).any fun later =>
              same row later && decide (version row ≤ version later)) = true := by
            obtain ⟨later, hmem, hlater⟩ := List.any_eq_true.mp hany
            have hsame := (Bool.and_eq_true_iff.mp hlater).1
            refine List.any_eq_true.mpr ⟨later, List.mem_filter.mpr ⟨hmem, ?_⟩, hlater⟩
            rw [← h row later hsame, hp]
          rw [List.filter_cons_of_pos hp, final, if_pos hany']
        · rw [List.filter_cons_of_neg hp]
      · rw [final, if_neg hany]
        by_cases hp : p row = true
        · have hany' : ¬ ((rows.filter p).any fun later =>
              same row later && decide (version row ≤ version later)) = true := by
            intro hcontra
            obtain ⟨later, hmem, hlater⟩ := List.any_eq_true.mp hcontra
            exact hany (List.any_eq_true.mpr ⟨later, (List.mem_filter.mp hmem).1, hlater⟩)
          rw [List.filter_cons_of_pos hp, List.filter_cons_of_pos hp, final, if_neg hany', ← ih,
            List.filter_filter, List.filter_filter]
          congr 1
          apply List.filter_congr
          intro later _
          exact Bool.and_comm _ _
        · rw [List.filter_cons_of_neg hp, List.filter_cons_of_neg hp, ← ih, List.filter_filter]
          apply List.filter_congr
          intro later _
          cases hsame : same row later with
          | false => simp
          | true =>
              have hlater : p later = false := by
                rw [← h row later hsame]
                exact Bool.eq_false_iff.mpr hp
              simp [hlater]

/-! ## Two batches of rows -/

/-- Every row of the table is replaced by rows that are inserted. -/
theorem final_append_of_newer {rows inserted : List α}
    (h : ∀ row ∈ rows, ∃ later ∈ inserted, same row later = true ∧ version row ≤ version later) :
    final same version (rows ++ inserted) = final same version inserted := by
  induction rows with
  | nil => rfl
  | cons row rows ih =>
      have hany : ((rows ++ inserted).any fun later =>
          same row later && decide (version row ≤ version later)) = true := by
        obtain ⟨later, hlater, hsame, hversion⟩ := h row List.mem_cons_self
        refine List.any_eq_true.mpr ⟨later, List.mem_append_right _ hlater, ?_⟩
        simp only [hsame, hversion, decide_true, Bool.and_self]
      rw [List.cons_append, final, if_pos hany]
      exact ih fun other hother => h other (List.mem_cons_of_mem _ hother)

/-- Every row that is inserted is older than a row of the table with the same key. -/
theorem final_append_of_older (hsymm : ∀ a b, same a b = true → same b a = true)
    (htrans : ∀ a b c, same a b = true → same b c = true → same a c = true)
    {rows inserted : List α}
    (h : ∀ later ∈ inserted, ∃ row ∈ rows, same row later = true ∧ version later < version row) :
    final same version (rows ++ inserted) = final same version rows := by
  induction hlength : rows.length using Nat.strongRecOn generalizing rows inserted with
  | _ n ih =>
  cases rows with
  | nil =>
      cases inserted with
      | nil => rfl
      | cons later inserted =>
          obtain ⟨row, hrow, _⟩ := h later List.mem_cons_self
          cases hrow
  | cons row rows =>
      subst hlength
      by_cases hany : (rows.any fun later =>
          same row later && decide (version row ≤ version later)) = true
      · -- the first row is replaced by a later one of the table
        obtain ⟨newer, hnewer, hreplaces⟩ := List.any_eq_true.mp hany
        simp only [Bool.and_eq_true, decide_eq_true_eq] at hreplaces
        have hany' : ((rows ++ inserted).any fun later =>
            same row later && decide (version row ≤ version later)) = true := by
          rw [List.any_append, hany, Bool.true_or]
        rw [List.cons_append, final, if_pos hany', final, if_pos hany]
        refine ih rows.length (Nat.lt_succ_self _) ?_ rfl
        intro later hlater
        obtain ⟨older, holder, hsame, hversion⟩ := h later hlater
        rcases List.mem_cons.mp holder with rfl | hmem
        · exact ⟨newer, hnewer, htrans _ _ _ (hsymm _ _ hreplaces.1) hsame,
            Nat.lt_of_lt_of_le hversion hreplaces.2⟩
        · exact ⟨older, hmem, hsame, hversion⟩
      · have hany' : ¬ ((rows ++ inserted).any fun later =>
            same row later && decide (version row ≤ version later)) = true := by
          rw [List.any_append, Bool.or_eq_true]
          rintro (hrows | hinserted)
          · exact hany hrows
          · obtain ⟨later, hlater, hreplaces⟩ := List.any_eq_true.mp hinserted
            simp only [Bool.and_eq_true, decide_eq_true_eq] at hreplaces
            obtain ⟨older, holder, hsame, hversion⟩ := h later hlater
            rcases List.mem_cons.mp holder with rfl | hmem
            · omega
            · refine hany (List.any_eq_true.mpr ⟨older, hmem, ?_⟩)
              rw [Bool.and_eq_true, decide_eq_true_eq]
              exact ⟨htrans _ _ _ hreplaces.1 (hsymm _ _ hsame), by omega⟩
        have hkey : ∀ a b, same a b = true → (!same row a) = !same row b := by
          intro a b hab
          rw [Bool.not_inj_iff, Bool.eq_iff_iff]
          exact ⟨fun ha => htrans _ _ _ ha hab, fun hb => htrans _ _ _ hb (hsymm _ _ hab)⟩
        rw [List.cons_append, final, if_neg hany', final, if_neg hany, filter_final hkey,
          filter_final hkey, List.filter_append]
        congr 1
        refine ih (rows.filter fun later => !same row later).length
          (Nat.lt_succ_of_le (List.length_filter_le _ _)) ?_ rfl
        intro later hlater
        obtain ⟨hmem, hother⟩ := List.mem_filter.mp hlater
        obtain ⟨older, holder, hsame, hversion⟩ := h later hmem
        rcases List.mem_cons.mp holder with rfl | holder'
        · rw [hsame] at hother
          cases hother
        · refine ⟨older, List.mem_filter.mpr ⟨holder', ?_⟩, hsame, hversion⟩
          rw [hkey older later hsame]
          exact hother

/-! ## Merges -/

variable (same version) in
/-- A merge puts what `FINAL` reads of `count` adjacent rows in their place. -/
def merge (start count : Nat) (rows : List α) : List α :=
  rows.take start ++
    (final same version ((rows.drop start).take count) ++ (rows.drop start).drop count)

variable (same version) in
/-- One of the rows has the key of `row` and replaces it. -/
def replaced (row : α) (rows : List α) : Bool :=
  rows.any fun later => same row later && decide (version row ≤ version later)

theorem final_cons_of_replaced {row : α} {rows : List α}
    (h : replaced same version row rows = true) :
    final same version (row :: rows) = final same version rows := if_pos h

theorem final_cons_of_kept {row : α} {rows : List α}
    (h : replaced same version row rows = false) :
    final same version (row :: rows) =
      row :: (final same version rows).filter fun later => !same row later :=
  if_neg (by rw [← replaced, h]; exact Bool.false_ne_true)

theorem replaced_append (row : α) (rows rows' : List α) :
    replaced same version row (rows ++ rows') =
      (replaced same version row rows || replaced same version row rows') := List.any_append

theorem replaced_iff {row : α} {rows : List α} : replaced same version row rows = true ↔
    ∃ later ∈ rows, same row later = true ∧ version row ≤ version later := by
  simp [replaced]

theorem mem_of_mem_final {row : α} {rows : List α} (h : row ∈ final same version rows) :
    row ∈ rows := by
  induction rows with
  | nil => exact h
  | cons first rows ih =>
      cases hfirst : replaced same version first rows with
      | true =>
          rw [final_cons_of_replaced hfirst] at h
          exact List.mem_cons_of_mem _ (ih h)
      | false =>
          rw [final_cons_of_kept hfirst] at h
          rcases List.mem_cons.mp h with rfl | hrest
          · exact List.mem_cons_self
          · exact List.mem_cons_of_mem _ (ih (List.mem_filter.mp hrest).1)

section Equivalence

variable (hsymm : ∀ a b, same a b = true → same b a = true)
  (htrans : ∀ a b c, same a b = true → same b c = true → same a c = true)

include hsymm htrans

theorem same_congr (row : α) (a b : α) (h : same a b = true) : (!same row a) = !same row b := by
  rw [Bool.not_inj_iff, Bool.eq_iff_iff]
  exact ⟨fun ha => htrans _ _ _ ha h, fun hb => htrans _ _ _ hb (hsymm _ _ h)⟩

/-- What is replaced by a row of a table is replaced by one that `FINAL` reads. -/
theorem replaced_final (row : α) (rows : List α) :
    replaced same version row (final same version rows) = replaced same version row rows := by
  rw [Bool.eq_iff_iff, replaced_iff, replaced_iff]
  constructor
  · rintro ⟨later, hlater, hsame⟩
    exact ⟨later, mem_of_mem_final hlater, hsame⟩
  rintro ⟨later, hlater, hsame, hversion⟩
  induction rows generalizing later with
  | nil => cases hlater
  | cons first rows ih =>
      cases hfirst : replaced same version first rows with
      | true =>
          rw [final_cons_of_replaced hfirst]
          rcases List.mem_cons.mp hlater with rfl | hrest
          · obtain ⟨newer, hnewer, hsame', hversion'⟩ := replaced_iff.mp hfirst
            exact ih newer hnewer (htrans _ _ _ hsame hsame') (Nat.le_trans hversion hversion')
          · exact ih later hrest hsame hversion
      | false =>
          rw [final_cons_of_kept hfirst]
          by_cases hkey : same row first = true ∧ version row ≤ version first
          · exact ⟨first, List.mem_cons_self, hkey⟩
          rcases List.mem_cons.mp hlater with rfl | hrest
          · exact absurd ⟨hsame, hversion⟩ hkey
          obtain ⟨newer, hnewer, hsame', hversion'⟩ := ih later hrest hsame hversion
          refine ⟨newer, List.mem_cons_of_mem _ (List.mem_filter.mpr ⟨hnewer, ?_⟩), hsame',
            hversion'⟩
          -- otherwise `first` would be the newer of the two
          rw [Bool.not_eq_true', Bool.eq_false_iff]
          intro hother
          have hlt : ¬ version first ≤ version newer := fun hle =>
            Bool.false_ne_true (hfirst.symm.trans
              (replaced_iff.mpr ⟨newer, mem_of_mem_final hnewer, hother, hle⟩))
          exact hkey ⟨htrans _ _ _ hsame' (hsymm _ _ hother), by omega⟩

/-- Rows that later ones replace may go before the table is read. -/
theorem final_filter_append {p : α → Bool} {rows rows' : List α}
    (h : ∀ row ∈ rows, p row = false → replaced same version row rows' = true) :
    final same version (rows.filter p ++ rows') = final same version (rows ++ rows') := by
  induction rows with
  | nil => rfl
  | cons row rows ih =>
      have hrest := ih fun other hother => h other (List.mem_cons_of_mem _ hother)
      have hany : replaced same version row (rows.filter p ++ rows') =
          replaced same version row (rows ++ rows') := by
        rw [← replaced_final hsymm htrans, hrest, replaced_final hsymm htrans]
      cases hp : p row with
      | false =>
          rw [List.filter_cons_of_neg (by simp [hp]), hrest, List.cons_append,
            final_cons_of_replaced]
          rw [replaced_append, h row List.mem_cons_self hp, Bool.or_true]
      | true =>
          rw [List.filter_cons_of_pos hp, List.cons_append, List.cons_append]
          cases hreplaced : replaced same version row (rows ++ rows') with
          | true =>
              rw [final_cons_of_replaced hreplaced, final_cons_of_replaced (hany.trans hreplaced),
                hrest]
          | false =>
              rw [final_cons_of_kept hreplaced, final_cons_of_kept (hany.trans hreplaced), hrest]

theorem final_append_final (rows rows' : List α) :
    final same version (rows ++ final same version rows') = final same version (rows ++ rows') := by
  induction rows with
  | nil =>
      rw [List.nil_append, List.nil_append]
      induction rows' with
      | nil => rfl
      | cons row rows' ih =>
          cases hrow : replaced same version row rows' with
          | true => rw [final_cons_of_replaced hrow, ih]
          | false =>
              rw [final_cons_of_kept hrow, final_cons_of_kept, List.cons.injEq]
              · refine ⟨rfl, ?_⟩
                rw [filter_final (same_congr hsymm htrans row), List.filter_filter]
                simp only [Bool.and_self]
                rw [← filter_final (same_congr hsymm htrans row), ih]
              · rw [Bool.eq_false_iff]
                intro hcontra
                obtain ⟨later, hlater, hsame, _⟩ := replaced_iff.mp hcontra
                simp [hsame] at hlater
  | cons row rows ih =>
      have hany : replaced same version row (rows ++ final same version rows') =
          replaced same version row (rows ++ rows') := by
        rw [replaced_append, replaced_append, replaced_final hsymm htrans]
      rw [List.cons_append, List.cons_append]
      cases hrow : replaced same version row (rows ++ rows') with
      | true => rw [final_cons_of_replaced hrow, final_cons_of_replaced (hany.trans hrow), ih]
      | false => rw [final_cons_of_kept hrow, final_cons_of_kept (hany.trans hrow), ih]

theorem final_final_append (rows rows' : List α) :
    final same version (final same version rows ++ rows') = final same version (rows ++ rows') := by
  induction rows with
  | nil => rfl
  | cons row rows ih =>
      have hkey := same_congr hsymm htrans row
      cases hrow : replaced same version row rows with
      | true =>
          rw [final_cons_of_replaced hrow, ih, List.cons_append, final_cons_of_replaced]
          rw [replaced_append, hrow, Bool.true_or]
      | false =>
          have hothers : replaced same version row
              ((final same version rows).filter fun later => !same row later) = false := by
            rw [Bool.eq_false_iff]
            intro hcontra
            obtain ⟨later, hlater, hsame, _⟩ := replaced_iff.mp hcontra
            simp [hsame] at hlater
          have hany : replaced same version row
              (((final same version rows).filter fun later => !same row later) ++ rows') =
              replaced same version row (rows ++ rows') := by
            rw [replaced_append, replaced_append, hothers, hrow]
          rw [final_cons_of_kept hrow, List.cons_append, List.cons_append]
          cases hrow' : replaced same version row (rows ++ rows') with
          | true =>
              rw [final_cons_of_replaced hrow', final_cons_of_replaced (hany.trans hrow'), ← ih]
              refine final_filter_append hsymm htrans fun other hother hsame => ?_
              -- `row` is newer than `other`, and `rows'` has a newer row still
              rw [replaced_append, hrow, Bool.false_or] at hrow'
              obtain ⟨newer, hnewer, hsame', hversion⟩ := replaced_iff.mp hrow'
              have hsame : same row other = true := by simpa using hsame
              have hlt : ¬ version row ≤ version other := fun hle =>
                Bool.false_ne_true (hrow.symm.trans
                  (replaced_iff.mpr ⟨other, mem_of_mem_final hother, hsame, hle⟩))
              exact replaced_iff.mpr ⟨newer, hnewer, htrans _ _ _ (hsymm _ _ hsame) hsame',
                by omega⟩
          | false =>
              rw [final_cons_of_kept hrow', final_cons_of_kept (hany.trans hrow'), ← ih,
                filter_final hkey (_ ++ _), filter_final hkey (_ ++ _), List.filter_append,
                List.filter_append, List.filter_filter]
              simp only [Bool.and_self]

/-- Tables that `FINAL` reads alike are read alike after the same insertion. -/
theorem final_append_congr {rows rows' : List α}
    (h : final same version rows = final same version rows') (inserted : List α) :
    final same version (rows ++ inserted) = final same version (rows' ++ inserted) := by
  rw [← final_final_append hsymm htrans rows, h, final_final_append hsymm htrans]

/-- `FINAL` reads the same rows after a merge. -/
theorem final_merge (start count : Nat) (rows : List α) :
    final same version (merge same version start count rows) = final same version rows := by
  rw [merge, ← final_append_final hsymm htrans, final_final_append hsymm htrans,
    final_append_final hsymm htrans, List.take_append_drop, List.take_append_drop]

end Equivalence

end ReplacingTable
