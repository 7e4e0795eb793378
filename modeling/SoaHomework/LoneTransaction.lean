import SoaHomework.RowTransactions

/-!
# A transaction with the tables to itself

While no other transaction holds a lock, everything that a transaction sees and
does is a matter of two maps, the committed rows and those it has written
(`Lone`). None of its statements waits.
-/

set_option linter.unusedSectionVars false

namespace RowStore

variable {κ υ : Type} {β : κ → Type} [DecidableEq κ] [DecidableEq υ]

/-- Transaction `i` has written `written` over the committed rows and is the only
    one that holds locks, all of them on rows that it sees. -/
structure Lone (s : RowStore κ υ β) (i : Nat) (committed written : AList β) : Prop where
  solitary : s.Solitary i
  rows : s.rows = committed
  pending : s.pending i = written
  seen : ∀ k, s.locks (.inl k) ≠ none → k ∈ written ∪ committed
  held : ∀ k ∈ written, s.locks (.inl k) ≠ none

variable {s : RowStore κ υ β} {i : Nat} {committed written : AList β}

theorem lone_ofRows (rows : AList β) (i : Nat) :
    (ofRows rows : RowStore κ υ β).Lone i rows ∅ := by
  constructor
  · exact solitary_ofRows rows i
  · rfl
  · rfl
  · intro k h
    exact absurd rfl h
  · intro k h
    exact absurd h (AList.notMem_empty k)

namespace Lone

theorem view (h : s.Lone i committed written) : s.view i = written ∪ committed := by
  rw [RowStore.view, h.pending, h.rows]

theorem acquire (h : s.Lone i committed written) {l : κ ⊕ υ}
    (hl : ∀ k, l = .inl k → k ∈ written ∪ committed) :
    ∃ s', s.acquire i l = some s' ∧ s'.Lone i committed written := by
  obtain ⟨s', hacquire, hsolitary⟩ := h.solitary.acquire l
  obtain ⟨hrows, hpending, hlocks, _⟩ := acquire_spec hacquire
  refine ⟨s', hacquire, ?_⟩
  constructor
  · exact hsolitary
  · rw [hrows, h.rows]
  · rw [hpending, h.pending]
  · intro k hk
    by_cases heq : l = .inl k
    · exact hl k heq
    · rw [hlocks, Function.update_of_ne (Ne.symm heq)] at hk
      exact h.seen k hk
  · intro k hk
    by_cases heq : l = .inl k
    · rw [← heq, acquire_self hacquire]
      nofun
    · rw [hlocks, Function.update_of_ne (Ne.symm heq)]
      exact h.held k hk

/-- A row is written once it is locked. -/
theorem acquire_put (h : s.Lone i committed written) (k : κ) (row : β k) :
    ∃ s', s.acquire i (.inl k) = some s' ∧
      (s'.put i k row).Lone i committed (written.insert k row) := by
  obtain ⟨s', hacquire, hsolitary⟩ := h.solitary.acquire (.inl k)
  obtain ⟨hrows, hpending, hlocks, _⟩ := acquire_spec hacquire
  refine ⟨s', hacquire, ?_⟩
  constructor
  · exact hsolitary
  · exact hrows.trans h.rows
  · change Function.update s'.pending i ((s'.pending i).insert k row) i = _
    rw [Function.update_self, hpending, h.pending]
  · intro k' hk'
    by_cases heq : k' = k
    · exact AList.mem_union.mpr (Or.inl ((AList.mem_insert _).mpr (Or.inl heq)))
    · change s'.locks (.inl k') ≠ none at hk'
      rw [hlocks, Function.update_of_ne (by simpa using heq)] at hk'
      rcases AList.mem_union.mp (h.seen k' hk') with hwritten | hcommitted
      · exact AList.mem_union.mpr (Or.inl ((AList.mem_insert _).mpr (Or.inr hwritten)))
      · exact AList.mem_union.mpr (Or.inr hcommitted)
  · intro k' hk'
    change s'.locks (.inl k') ≠ none
    by_cases heq : k' = k
    · rw [heq, acquire_self hacquire]
      nofun
    · rw [hlocks, Function.update_of_ne (by simpa using heq)]
      rcases (AList.mem_insert _).mp hk' with hsame | hwritten
      · exact absurd hsame heq
      · exact h.held k' hwritten

theorem lockAll (h : s.Lone i committed written) (ks : List κ) :
    ∃ s', s.lockAll i ks = some s' ∧ s'.Lone i committed written := by
  induction ks generalizing s with
  | nil => exact ⟨s, rfl, h⟩
  | cons k ks ih =>
      have hselect : ∃ row s₁, s.selectForUpdate i k = some (row, s₁) ∧
          s₁.Lone i committed written := by
        rw [RowStore.selectForUpdate, RowStore.read, h.view]
        cases hrow : (written ∪ committed).lookup k with
        | none => exact ⟨none, s, rfl, h⟩
        | some row =>
            have hmem : ∀ k', (.inl k : κ ⊕ υ) = .inl k' → k' ∈ written ∪ committed := by
              rintro _ ⟨⟩
              exact AList.lookup_isSome.mp (by rw [hrow]; rfl)
            obtain ⟨s₁, hacquire, hlone⟩ := h.acquire hmem
            exact ⟨some row, s₁, by simp only [hacquire, Option.map_some], hlone⟩
      obtain ⟨row, s₁, hselect, hlone⟩ := hselect
      obtain ⟨s', hrest, hlone'⟩ := ih hlone
      exact ⟨s', by simp only [RowStore.lockAll, hselect, Option.bind_some, hrest], hlone'⟩

/-- An `UPDATE` of a row that is not there. -/
theorem update_missing (h : s.Lone i committed written) {k : κ}
    (hrow : (written ∪ committed).lookup k = none) (set : β k → β k) (check : β k → Bool) :
    s.update i k set check = some (.missing, s) := by
  rw [RowStore.update, RowStore.read, h.view, hrow]

theorem update (h : s.Lone i committed written) {k : κ} {row : β k}
    (hrow : (written ∪ committed).lookup k = some row) (set : β k → β k)
    (check : β k → Bool) :
    ∃ s', s.update i k set check =
        some (if check (set row) then .written (set row) else .rejected, s') ∧
      s'.Lone i committed (if check (set row) then written.insert k (set row) else written) := by
  have hmem : ∀ k', (.inl k : κ ⊕ υ) = .inl k' → k' ∈ written ∪ committed := by
    rintro _ ⟨⟩
    exact AList.lookup_isSome.mp (by rw [hrow]; rfl)
  simp only [RowStore.update, RowStore.read, h.view, hrow]
  cases hcheck : check (set row) with
  | false =>
      obtain ⟨s', hacquire, hlone⟩ := h.acquire hmem
      exact ⟨s', by rw [hacquire]; rfl, hlone⟩
  | true =>
      obtain ⟨s', hacquire, hlone⟩ := h.acquire_put k (set row)
      exact ⟨_, by rw [hacquire]; rfl, hlone⟩

/-- A fresh key is no key of a committed row, and nobody has locked it. -/
theorem fresh_iff (h : s.Lone i committed written) (k : κ) :
    k ∉ s.rows ∧ s.locks (.inl k) = none ↔ k ∉ written ∪ committed := by
  rw [h.rows]
  constructor
  · rintro ⟨hrows, hlock⟩ hmem
    rcases AList.mem_union.mp hmem with hwritten | hcommitted
    · exact h.held k hwritten hlock
    · exact hrows hcommitted
  · intro hk
    refine ⟨fun hcommitted => hk (AList.mem_union.mpr (Or.inr hcommitted)), ?_⟩
    by_contra hlock
    exact hk (h.seen k hlock)

theorem insertRow (h : s.Lone i committed written) {k : κ} (hk : k ∉ written ∪ committed)
    (row : β k) :
    ∃ s', s.insertRow i k row = some s' ∧ s'.Lone i committed (written.insert k row) := by
  obtain ⟨hrows, hlock⟩ := (h.fresh_iff k).mpr hk
  obtain ⟨s', hacquire, hlone⟩ := h.acquire_put k row
  exact ⟨_, by rw [RowStore.insertRow, if_neg hrows, if_pos hlock, hacquire]; rfl, hlone⟩

theorem insertRow_taken (h : s.Lone i committed written) {k : κ} (hk : k ∈ written ∪ committed)
    (row : β k) : s.insertRow i k row = none := by
  rw [RowStore.insertRow]
  by_cases hrows : k ∈ s.rows
  · rw [if_pos hrows]
  · rw [if_neg hrows, if_neg]
    intro hlock
    exact (h.fresh_iff k).mp ⟨hrows, hlock⟩ hk

theorem insert_taken (h : s.Lone i committed written) {index : (k : κ) → β k → Option υ} {k : κ}
    (hk : k ∈ written ∪ committed) (u : υ) (row : β k) : s.insert index i k u row = none := by
  rw [RowStore.insert, if_pos]
  by_contra hfree
  rw [not_or, Bool.not_eq_true, Option.isSome_eq_false_iff, Option.isNone_iff_eq_none] at hfree
  exact (h.fresh_iff k).mp hfree hk

theorem insert (h : s.Lone i committed written) (index : (k : κ) → β k → Option υ) {k : κ}
    (hk : k ∉ written ∪ committed) (u : υ) (row : β k) :
    ∃ s', s.insert index i k u row =
        some (if (written ∪ committed).entries.any fun entry => index entry.1 entry.2 == some u
          then .rejected else .written row, s') ∧
      s'.Lone i committed
        (if (written ∪ committed).entries.any fun entry => index entry.1 entry.2 == some u
          then written else written.insert k row) := by
  obtain ⟨hrows, hlock⟩ := (h.fresh_iff k).mpr hk
  rw [RowStore.insert, if_neg (by simp [hrows, hlock]), h.view]
  cases (written ∪ committed).entries.any fun entry => index entry.1 entry.2 == some u with
  | true => exact ⟨s, rfl, h⟩
  | false =>
      obtain ⟨s₁, hindex, hlone⟩ := h.acquire (l := .inr u) nofun
      obtain ⟨s₂, hacquire, hlone'⟩ := hlone.acquire_put k row
      exact ⟨_, by simp only [hindex, Option.bind_some, hacquire]; rfl, hlone'⟩

theorem commit (h : s.Lone i committed written) :
    (s.commit i).Lone i (written ∪ committed) ∅ := by
  have hfree : ∀ l, (s.commit i).locks l = none := by
    intro l
    simp only [RowStore.commit, RowStore.finish]
    split
    · rfl
    · rename_i hheld
      by_contra hlock
      obtain ⟨j, hj⟩ := Option.ne_none_iff_exists'.mp hlock
      exact hheld (by rw [hj, h.solitary l j hj])
  constructor
  · intro l j hl
    rw [hfree l] at hl
    cases hl
  · exact h.view
  · exact Function.update_self ..
  · intro k hk
    exact absurd (hfree _) hk
  · intro k hk
    exact absurd hk (AList.notMem_empty k)

end Lone

end RowStore
