import Mathlib.Data.List.AList
import Mathlib.Algebra.BigOperators.Group.Finset.Basic
import Mathlib.Algebra.BigOperators.Group.List.Basic
import Mathlib.Algebra.Order.BigOperators.Group.List
import Mathlib.Tactic.Abel

/-!
# Totals over the rows of a store

A ledger is a sum over all rows of a store. These lemmas say how the sum moves
when one row is written: no other row matters, and it contributes its new weight
less its old one.
-/

namespace AList

variable {κ : Type} {β : κ → Type} {M : Type} [AddCommGroup M]

/-- The sum of the weights of all rows. -/
def total (weight : (k : κ) → β k → M) (s : AList β) : M :=
  (s.entries.map fun entry => weight entry.1 entry.2).sum

@[simp] theorem total_empty (weight : (k : κ) → β k → M) :
    (∅ : AList β).total weight = 0 := rfl

/-- The weight of the row under `k`, zero when there is none. -/
def weightAt [DecidableEq κ] (weight : (k : κ) → β k → M) (s : AList β) (k : κ) : M :=
  match s.lookup k with
  | some row => weight k row
  | none => 0

variable [DecidableEq κ]

theorem weightAt_of_lookup {weight : (k : κ) → β k → M} {s : AList β} {k : κ} {row : β k}
    (h : s.lookup k = some row) : s.weightAt weight k = weight k row := by
  simp only [weightAt, h]

theorem weightAt_of_lookup_none {weight : (k : κ) → β k → M} {s : AList β} {k : κ}
    (h : s.lookup k = none) : s.weightAt weight k = 0 := by
  simp only [weightAt, h]

theorem weightAt_congr {weight : (k : κ) → β k → M} {s t : AList β} {k : κ}
    (h : s.lookup k = t.lookup k) : s.weightAt weight k = t.weightAt weight k := by
  simp only [weightAt, h]

private theorem sum_kerase (weight : (k : κ) → β k → M) (k : κ) (l : List (Sigma β)) :
    ((l.kerase k).map fun entry => weight entry.1 entry.2).sum =
      (l.map fun entry => weight entry.1 entry.2).sum -
        (match l.dlookup k with
          | some row => weight k row
          | none => 0) := by
  induction l with
  | nil => simp
  | cons entry l ih =>
      obtain ⟨k', row⟩ := entry
      by_cases hk : k = k'
      · subst hk
        simp
      · rw [List.kerase_cons_ne hk, List.dlookup_cons_ne l ⟨k', row⟩ hk]
        simp only [List.map_cons, List.sum_cons, ih]
        abel

/-- Writing one row adds its weight and takes the weight of the row it
    replaces. -/
theorem total_insert (weight : (k : κ) → β k → M) (s : AList β) (k : κ) (row : β k) :
    (s.insert k row).total weight = s.total weight + (weight k row - s.weightAt weight k) := by
  simp only [total, entries_insert, List.map_cons, List.sum_cons, sum_kerase, weightAt,
    lookup]
  abel

theorem weightAt_insert (weight : (k : κ) → β k → M) (s : AList β) (k : κ) (row : β k) (k' : κ) :
    (s.insert k row).weightAt weight k' =
      if k' = k then weight k row else s.weightAt weight k' := by
  by_cases hk : k' = k
  · subst hk
    rw [if_pos rfl, weightAt_of_lookup (lookup_insert s)]
  · rw [if_neg hk, weightAt_congr (lookup_insert_ne hk)]

/-- The total is the sum over any set of keys that has all the rows. -/
theorem total_eq_sum (weight : (k : κ) → β k → M) (s : AList β) {keys : Finset κ}
    (h : ∀ k ∈ s, k ∈ keys) : s.total weight = ∑ k ∈ keys, s.weightAt weight k := by
  induction s using AList.insertRec with
  | H0 =>
      rw [total_empty]
      exact (Finset.sum_eq_zero fun k _ => weightAt_of_lookup_none (lookup_empty k)).symm
  | IH k row s hk ih =>
      have hs : ∀ k' ∈ s, k' ∈ keys := fun k' hk' => h k' ((mem_insert s).mpr (Or.inr hk'))
      have hmem : k ∈ keys := h k ((mem_insert s).mpr (Or.inl rfl))
      rw [total_insert, ih hs, ← Finset.add_sum_erase keys _ hmem,
        ← Finset.add_sum_erase keys (fun k' => (s.insert k row).weightAt weight k') hmem]
      have hrest : ∑ k' ∈ keys.erase k, (s.insert k row).weightAt weight k' =
          ∑ k' ∈ keys.erase k, s.weightAt weight k' := by
        refine Finset.sum_congr rfl fun k' hk' => ?_
        rw [weightAt_insert, if_neg (Finset.ne_of_mem_erase hk')]
      rw [hrest, weightAt_insert, if_pos rfl]
      abel

/-- Two totals differ by one row when all other rows weigh the same, whatever
    the weights depend on. -/
theorem total_sub_total {weight weight' : (k : κ) → β k → M} {s t : AList β} (k : κ)
    (h : ∀ k', k' ≠ k → t.weightAt weight' k' = s.weightAt weight k') :
    t.total weight' = s.total weight + (t.weightAt weight' k - s.weightAt weight k) := by
  let keys : Finset κ := (k :: (s.keys ++ t.keys)).toFinset
  have hs : ∀ k' ∈ s, k' ∈ keys := fun k' hk' =>
    List.mem_toFinset.mpr (List.mem_cons_of_mem k (List.mem_append_left _ (mem_keys.mp hk')))
  have ht : ∀ k' ∈ t, k' ∈ keys := fun k' hk' =>
    List.mem_toFinset.mpr (List.mem_cons_of_mem k (List.mem_append_right _ (mem_keys.mp hk')))
  have hk : k ∈ keys := List.mem_toFinset.mpr List.mem_cons_self
  rw [total_eq_sum weight s hs, total_eq_sum weight' t ht, ← Finset.add_sum_erase _ _ hk,
    ← Finset.add_sum_erase _ (fun k' => s.weightAt weight k') hk]
  rw [Finset.sum_congr rfl fun k' hk' => h k' (Finset.ne_of_mem_erase hk')]
  abel

theorem total_congr {weight weight' : (k : κ) → β k → M} {s : AList β}
    (h : ∀ k row, s.lookup k = some row → weight k row = weight' k row) :
    s.total weight = s.total weight' := by
  unfold total
  congr 1
  apply List.map_congr_left
  intro entry hentry
  exact h entry.1 entry.2 ((List.mem_dlookup_iff s.nodupKeys).mpr hentry)

theorem total_eq_zero {weight : (k : κ) → β k → M} {s : AList β}
    (h : ∀ k row, s.lookup k = some row → weight k row = 0) : s.total weight = 0 := by
  have hzero : s.total weight = s.total fun _ _ => 0 := total_congr h
  rw [hzero]
  simp [total]

section Ordered

variable [PartialOrder M] [IsOrderedAddMonoid M]

theorem total_nonneg {weight : (k : κ) → β k → M} {s : AList β}
    (h : ∀ k row, s.lookup k = some row → 0 ≤ weight k row) : 0 ≤ s.total weight := by
  refine List.sum_nonneg fun x hx => ?_
  obtain ⟨entry, hentry, rfl⟩ := List.mem_map.mp hx
  exact h entry.1 entry.2 ((List.mem_dlookup_iff s.nodupKeys).mpr hentry)

/-- A row weighs at most the total when no row has a negative weight. -/
theorem weight_le_total {weight : (k : κ) → β k → M} {s : AList β}
    (h : ∀ k row, s.lookup k = some row → 0 ≤ weight k row) {k : κ} {row : β k}
    (hrow : s.lookup k = some row) : weight k row ≤ s.total weight := by
  refine List.single_le_sum (fun x hx => ?_) _ ?_
  · obtain ⟨entry, hentry, rfl⟩ := List.mem_map.mp hx
    exact h entry.1 entry.2 ((List.mem_dlookup_iff s.nodupKeys).mpr hentry)
  · exact List.mem_map.mpr ⟨⟨k, row⟩, mem_lookup_iff.mp hrow, rfl⟩

end Ordered

private theorem filterMap_kerase {α : Type} (f : Sigma β → Option α) (k : κ)
    (l : List (Sigma β)) (h : ∀ row, l.dlookup k = some row → f ⟨k, row⟩ = none) :
    (l.kerase k).filterMap f = l.filterMap f := by
  induction l with
  | nil => simp
  | cons entry l ih =>
      obtain ⟨k', row⟩ := entry
      by_cases hk : k = k'
      · subst hk
        have hrow : f ⟨k, row⟩ = none := h row (List.dlookup_cons_eq l k row)
        rw [List.kerase_cons_eq (s := ⟨k, row⟩) rfl, List.filterMap_cons_none hrow]
      · rw [List.dlookup_cons_ne l ⟨k', row⟩ hk] at h
        rw [List.kerase_cons_ne hk, List.filterMap_cons, List.filterMap_cons, ih h]

/-- A query does not see that a row is replaced when it selects neither the old
    row nor the new one. -/
theorem filterMap_insert {α : Type} {f : Sigma β → Option α} {s : AList β} {k : κ} {row : β k}
    (hnew : f ⟨k, row⟩ = none) (hold : ∀ old, s.lookup k = some old → f ⟨k, old⟩ = none) :
    (s.insert k row).entries.filterMap f = s.entries.filterMap f := by
  rw [entries_insert, List.filterMap_cons_none hnew, filterMap_kerase f k s.entries hold]

section Matching

variable {κ κ' : Type} {β : κ → Type} {β' : κ' → Type} {M : Type} [AddCommGroup M]

theorem total_add (weight weight' : (k : κ) → β k → M) (s : AList β) :
    s.total (fun k row => weight k row + weight' k row) = s.total weight + s.total weight' := by
  simp only [total, List.sum_map_add]

variable [DecidableEq κ] [DecidableEq κ']

theorem weightAt_ne_zero {weight : (k : κ) → β k → M} {s : AList β} {k : κ}
    (h : s.weightAt weight k ≠ 0) :
    ∃ row, s.lookup k = some row ∧ weight k row ≠ 0 := by
  cases hrow : s.lookup k with
  | none => exact (h (weightAt_of_lookup_none hrow)).elim
  | some row =>
      rw [weightAt_of_lookup hrow] at h
      exact ⟨row, rfl, h⟩

/-- Two totals are equal when the rows that weigh something match one to one. -/
theorem total_eq_of_matching {weight : (k : κ) → β k → M} {weight' : (k : κ') → β' k → M}
    {s : AList β} {t : AList β'} (R : κ → κ' → Prop)
    (hleft : ∀ k row, s.lookup k = some row → weight k row ≠ 0 →
      ∃ k' row', t.lookup k' = some row' ∧ weight' k' row' = weight k row ∧ R k k')
    (hright : ∀ k' row', t.lookup k' = some row' → weight' k' row' ≠ 0 →
      ∃ k row, s.lookup k = some row ∧ weight k row ≠ 0 ∧ R k k')
    (hleftUnique : ∀ k₁ k₂ k', R k₁ k' → R k₂ k' → k₁ = k₂)
    (hrightUnique : ∀ k k₁ k₂, R k k₁ → R k k₂ → k₁ = k₂) : s.total weight = t.total weight' := by
  have hmatch : ∀ k, s.weightAt weight k ≠ 0 →
      ∃ k' ∈ t, t.weightAt weight' k' = s.weightAt weight k ∧ R k k' := by
    intro k hk
    obtain ⟨row, hrow, hweight⟩ := weightAt_ne_zero hk
    obtain ⟨k', row', hrow', hsame, hR⟩ := hleft k row hrow hweight
    refine ⟨k', lookup_isSome.mp (by rw [hrow']; rfl), ?_, hR⟩
    rw [weightAt_of_lookup hrow, weightAt_of_lookup hrow', hsame]
  choose partner hmem hsame hR using hmatch
  have hs : ∀ k ∈ s, k ∈ s.keys.toFinset := fun k hk => List.mem_toFinset.mpr (mem_keys.mp hk)
  have ht : ∀ k ∈ t, k ∈ t.keys.toFinset := fun k hk => List.mem_toFinset.mpr (mem_keys.mp hk)
  rw [total_eq_sum weight s hs, total_eq_sum weight' t ht]
  refine Finset.sum_bij_ne_zero (fun k _ hk => partner k hk) ?_ ?_ ?_ ?_
  · exact fun k _ hk => List.mem_toFinset.mpr (mem_keys.mp (hmem k hk))
  · intro k₁ _ h₁ k₂ _ h₂ heq
    exact hleftUnique k₁ k₂ _ (hR k₁ h₁) (heq ▸ hR k₂ h₂)
  · intro k' _ hk'
    obtain ⟨row', hrow', hweight'⟩ := weightAt_ne_zero hk'
    obtain ⟨k, row, hrow, hweight, hRk⟩ := hright k' row' hrow' hweight'
    have hk : s.weightAt weight k ≠ 0 := by rwa [weightAt_of_lookup hrow]
    have hks : k ∈ s := lookup_isSome.mp (by rw [hrow]; rfl)
    exact ⟨k, List.mem_toFinset.mpr (mem_keys.mp hks), hk, hrightUnique k _ _ (hR k hk) hRk⟩
  · exact fun k _ hk => (hsame k hk).symm

end Matching

end AList
