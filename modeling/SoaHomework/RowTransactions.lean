import SoaHomework.RowStore

/-!
# Transactions that know what they hold

The proof of a transaction carries two things along: the rows it has written so
far and the committed versions of the rows it has locked. Interference keeps
both (`Holds.keeps`), each statement extends them by one row, and together they
determine the committed rows that the commit leaves (`Holds.commit_lookup`).
-/

set_option linter.unusedSectionVars false

namespace RowStore

variable {κ υ : Type} {β : κ → Type} [DecidableEq κ] [DecidableEq υ]

/-- Lock the rows under `ks` that transaction `i` sees. -/
def lockAll (s : RowStore κ υ β) (i : Nat) : List κ → Option (RowStore κ υ β)
  | [] => some s
  | k :: ks => (s.selectForUpdate i k).bind fun result => result.2.lockAll i ks

/-- Transaction `i` has written `written`; it has locked every row that is
    `known`, whose committed version is as stated, and every row that it has
    inserted. -/
structure Holds (s : RowStore κ υ β) (i : Nat) (written : AList β)
    (known : (k : κ) → Option (β k)) : Prop where
  pending : s.pending i = written
  locked : ∀ k row, known k = some row →
    s.locks (.inl k) = some i ∧ s.rows.lookup k = some row
  inserted : ∀ k, k ∈ written → known k = none →
    s.locks (.inl k) = some i ∧ s.rows.lookup k = none

variable {s s' : RowStore κ υ β} {i : Nat} {written : AList β}
  {known known' : (k : κ) → Option (β k)}

theorem Idle.holds (h : s.Idle i) : s.Holds i ∅ fun _ => none where
  pending := h.pending
  locked k row hk := by cases hk
  inserted k hk _ := absurd hk (AList.notMem_empty k)

theorem Holds.keeps {index : (k : κ) → β k → Option υ} (h : s.Holds i written known)
    (hkeeps : Keeps index i s s') : s'.Holds i written known where
  pending := hkeeps.pending.trans h.pending
  locked k row hk := by
    obtain ⟨hlock, hrow⟩ := h.locked k row hk
    exact ⟨(hkeeps.locks _).mpr hlock, (hkeeps.rows k hlock).trans hrow⟩
  inserted k hk hnone := by
    obtain ⟨hlock, hrow⟩ := h.inserted k hk hnone
    exact ⟨(hkeeps.locks _).mpr hlock, (hkeeps.rows k hlock).trans hrow⟩

theorem Holds.read_of_notMem (h : s.Holds i written known) {k : κ} (hk : k ∉ written) :
    s.read i k = s.rows.lookup k := by
  refine read_of_not_pending ?_
  rw [h.pending]
  exact hk

theorem Holds.read_of_mem (h : s.Holds i written known) {k : κ} (hk : k ∈ written) :
    s.read i k = written.lookup k := by
  rw [read_of_pending (by rw [h.pending]; exact hk), h.pending]

/-! ## What one statement adds -/

/-- A lock is taken and nothing else changes. -/
theorem Holds.acquire (h : s.Holds i written known) {l : κ ⊕ υ}
    (hacquire : s.acquire i l = some s') : s'.Holds i written known := by
  obtain ⟨hrows, hpending, _, _⟩ := acquire_spec hacquire
  refine ⟨by rw [hpending, h.pending], fun k row hk => ?_, fun k hk hnone => ?_⟩
  · rw [hrows]
    exact ⟨acquire_held hacquire (h.locked k row hk).1, (h.locked k row hk).2⟩
  · rw [hrows]
    exact ⟨acquire_held hacquire (h.inserted k hk hnone).1, (h.inserted k hk hnone).2⟩

theorem Holds.learn (h : s.Holds i written known) {k : κ} {row : β k}
    (hlock : s.locks (.inl k) = some i) (hrow : s.rows.lookup k = some row) :
    s.Holds i written (Function.update known k (some row)) := by
  refine ⟨h.pending, fun k' row' hk' => ?_, fun k' hk' hnone => ?_⟩
  · by_cases hkk : k' = k
    · subst hkk
      rw [Function.update_self, Option.some.injEq] at hk'
      exact ⟨hlock, hrow.trans (congrArg some hk')⟩
    · rw [Function.update_of_ne hkk] at hk'
      exact h.locked k' row' hk'
  · by_cases hkk : k' = k
    · subst hkk
      rw [Function.update_self] at hnone
      cases hnone
    · rw [Function.update_of_ne hkk] at hnone
      exact h.inserted k' hk' hnone

/-- Write a row that the transaction has locked: one it knows, or one that it
    has inserted itself. -/
theorem Holds.put (h : s.Holds i written known) {k : κ} (row : β k)
    (hown : (known k).isSome ∨ (s.locks (.inl k) = some i ∧ s.rows.lookup k = none)) :
    (s.put i k row).Holds i (written.insert k row) known := by
  refine ⟨by rw [put_pending, h.pending], h.locked, fun k' hk' hnone => ?_⟩
  by_cases hkk : k' = k
  · subst hkk
    rcases hown with hknown | hfresh
    · rw [hnone] at hknown
      cases hknown
    · exact hfresh
  · exact h.inserted k' ((AList.mem_insert _).mp hk' |>.resolve_left hkk) hnone

theorem Holds.selectForUpdate (h : s.Holds i written known) {k : κ} (hk : k ∉ written)
    {row? : Option (β k)} (hselect : s.selectForUpdate i k = some (row?, s')) :
    (row? = none ∧ s.rows.lookup k = none ∧ s'.Holds i written known) ∨
      ∃ row, row? = some row ∧ s.rows.lookup k = some row ∧
        s'.Holds i written (Function.update known k (some row)) := by
  rcases selectForUpdate_cases hselect with ⟨hread, rfl, rfl⟩ | ⟨row, hread, rfl, hacquire⟩
  · rw [h.read_of_notMem hk] at hread
    exact Or.inl ⟨rfl, hread, h⟩
  · rw [h.read_of_notMem hk] at hread
    refine Or.inr ⟨row, rfl, hread, (h.acquire hacquire).learn (acquire_self hacquire) ?_⟩
    rw [(acquire_spec hacquire).1, hread]

/-- An `UPDATE` of a row that the transaction has not written. -/
theorem Holds.update (h : s.Holds i written known) {k : κ} (hk : k ∉ written)
    {set : β k → β k} {check : β k → Bool} {result : Written (β k)}
    (hupdate : s.update i k set check = some (result, s')) :
    (result = .missing ∧ s.rows.lookup k = none ∧ s'.Holds i written known) ∨
      ∃ row, s.rows.lookup k = some row ∧
        ((check (set row) = false ∧ result = .rejected ∧
            s'.Holds i written (Function.update known k (some row))) ∨
          (result = .written (set row) ∧
            s'.Holds i (written.insert k (set row))
              (Function.update known k (some row)))) := by
  rcases update_cases hupdate with ⟨hread, rfl, rfl⟩ | ⟨row, s₁, hread, hacquire, hwrite⟩
  · rw [h.read_of_notMem hk] at hread
    exact Or.inl ⟨rfl, hread, h⟩
  · rw [h.read_of_notMem hk] at hread
    have hlearn : s₁.Holds i written (Function.update known k (some row)) := by
      refine (h.acquire hacquire).learn (acquire_self hacquire) ?_
      rw [(acquire_spec hacquire).1, hread]
    refine Or.inr ⟨row, hread, ?_⟩
    rcases hwrite with ⟨hcheck, rfl, rfl⟩ | ⟨_, rfl, rfl⟩
    · exact Or.inl ⟨hcheck, rfl, hlearn⟩
    · refine Or.inr ⟨rfl, hlearn.put (set row) (Or.inl ?_)⟩
      rw [Function.update_self]
      rfl

/-- An `UPDATE` of a row that the transaction knows. -/
theorem Holds.update_known (h : s.Holds i written known) {k : κ} {row : β k}
    (hk : k ∉ written) (hrow : known k = some row)
    {set : β k → β k} {check : β k → Bool} {result : Written (β k)}
    (hupdate : s.update i k set check = some (result, s')) :
    (check (set row) = false ∧ result = .rejected ∧ s'.Holds i written known) ∨
      (result = .written (set row) ∧ s'.Holds i (written.insert k (set row)) known) := by
  have hsame : Function.update known k (some row) = known := by
    rw [← hrow, Function.update_eq_self]
  rcases h.update hk hupdate with ⟨_, hnone, _⟩ | ⟨row', hrow', hwrite⟩
  · rw [(h.locked k row hrow).2] at hnone
    cases hnone
  · rw [(h.locked k row hrow).2, Option.some.injEq] at hrow'
    subst hrow'
    rwa [hsame] at hwrite

/-- An `UPDATE` of a row that the transaction has written before. -/
theorem Holds.update_written (h : s.Holds i written known) {k : κ} {row : β k}
    (hrow : written.lookup k = some row)
    {set : β k → β k} {check : β k → Bool} {result : Written (β k)}
    (hupdate : s.update i k set check = some (result, s')) :
    (check (set row) = false ∧ result = .rejected ∧ s'.Holds i written known) ∨
      (result = .written (set row) ∧ s'.Holds i (written.insert k (set row)) known) := by
  have hmem : k ∈ written := AList.lookup_isSome.mp (by rw [hrow]; rfl)
  rcases update_cases hupdate with ⟨hread, _, _⟩ | ⟨row', s₁, hread, hacquire, hwrite⟩
  · rw [h.read_of_mem hmem, hrow] at hread
    cases hread
  · rw [h.read_of_mem hmem, hrow, Option.some.injEq] at hread
    subst hread
    have h₁ := h.acquire hacquire
    rcases hwrite with ⟨hcheck, rfl, rfl⟩ | ⟨_, rfl, rfl⟩
    · exact Or.inl ⟨hcheck, rfl, h₁⟩
    · refine Or.inr ⟨rfl, h₁.put (set row) ?_⟩
      cases hknown : known k with
      | some old => exact Or.inl rfl
      | none => exact Or.inr (h₁.inserted k hmem hknown)

theorem Holds.insertRow (h : s.Holds i written known) {k : κ} {row : β k}
    (hinsert : s.insertRow i k row = some s') :
    s.rows.lookup k = none ∧ k ∉ written ∧ s'.Holds i (written.insert k row) known := by
  obtain ⟨s₁, hfresh, hfree, hacquire, rfl⟩ := insertRow_cases hinsert
  have hnone : s.rows.lookup k = none := AList.lookup_eq_none.mpr hfresh
  have hlock : ∀ j, s.locks (.inl k) ≠ some j := fun j hj => by rw [hfree] at hj; cases hj
  refine ⟨hnone, fun hk => ?_, (h.acquire hacquire).put row (Or.inr ⟨acquire_self hacquire, ?_⟩)⟩
  · cases hknown : known k with
    | some old => exact hlock i (h.locked k old hknown).1
    | none => exact hlock i (h.inserted k hk hknown).1
  · rw [(acquire_spec hacquire).1, hnone]

/-- An `INSERT` under a unique index value. -/
theorem Holds.insert {index : (k : κ) → β k → Option υ} (h : s.Holds i written known)
    {k : κ} {u : υ} {row : β k} {result : Written (β k)}
    (hinsert : s.insert index i k u row = some (result, s')) :
    (result = .rejected ∧ s'.Holds i written known) ∨
      (result = .written row ∧ s.rows.lookup k = none ∧
        s'.Holds i (written.insert k row) known) := by
  rcases insert_cases hinsert with
    ⟨rfl, rfl, _⟩ | ⟨s₁, s₂, hfresh, _, _, hu, hk, rfl, rfl⟩
  · exact Or.inl ⟨rfl, h⟩
  · have hnone : s.rows.lookup k = none := AList.lookup_eq_none.mpr hfresh
    refine Or.inr ⟨rfl, hnone, ((h.acquire hu).acquire hk).put row (Or.inr ⟨acquire_self hk, ?_⟩)⟩
    rw [(acquire_spec hk).1, (acquire_spec hu).1, hnone]

/-! ## Locking several rows -/

theorem lockAll_rows {ks : List κ} (h : s.lockAll i ks = some s') : s'.rows = s.rows := by
  induction ks generalizing s with
  | nil =>
      simp only [lockAll, Option.some.injEq] at h
      rw [h]
  | cons k ks ih =>
      simp only [lockAll, Option.bind_eq_some_iff] at h
      obtain ⟨⟨row?, s₁⟩, hselect, hrest⟩ := h
      rw [ih hrest, selectForUpdate_rows hselect]

theorem selectForUpdate_pending {k : κ} {row : Option (β k)}
    (h : s.selectForUpdate i k = some (row, s')) : s'.pending = s.pending := by
  rcases selectForUpdate_cases h with ⟨_, _, rfl⟩ | ⟨_, _, _, hacquire⟩
  · rfl
  · exact (acquire_spec hacquire).2.1

theorem lockAll_pending {ks : List κ} (h : s.lockAll i ks = some s') :
    s'.pending = s.pending := by
  induction ks generalizing s with
  | nil =>
      simp only [lockAll, Option.some.injEq] at h
      rw [h]
  | cons k ks ih =>
      simp only [lockAll, Option.bind_eq_some_iff] at h
      obtain ⟨⟨row?, s₁⟩, hselect, hrest⟩ := h
      rw [ih hrest, selectForUpdate_pending hselect]

theorem lockAll_keeps {index : (k : κ) → β k → Option υ} {j : Nat} {ks : List κ}
    (hij : i ≠ j) (h : s.lockAll i ks = some s') : Keeps index j s s' := by
  induction ks generalizing s with
  | nil =>
      simp only [lockAll, Option.some.injEq] at h
      exact h ▸ Keeps.refl j s
  | cons k ks ih =>
      simp only [lockAll, Option.bind_eq_some_iff] at h
      obtain ⟨⟨row?, s₁⟩, hselect, hrest⟩ := h
      exact (selectForUpdate_keeps hij hselect).trans (ih hrest)

theorem lockAll_consistent {index : (k : κ) → β k → Option υ} {ks : List κ}
    (h : s.lockAll i ks = some s') (hs : s.Consistent index) : s'.Consistent index := by
  induction ks generalizing s with
  | nil =>
      simp only [lockAll, Option.some.injEq] at h
      exact h ▸ hs
  | cons k ks ih =>
      simp only [lockAll, Option.bind_eq_some_iff] at h
      obtain ⟨⟨row?, s₁⟩, hselect, hrest⟩ := h
      exact ih hrest (selectForUpdate_consistent hselect hs)

/-- All the rows that exist are then known. -/
theorem Holds.lockAll (h : s.Holds i ∅ known) {ks : List κ}
    (hlock : s.lockAll i ks = some s') :
    s'.Holds i ∅ fun k => if k ∈ ks then s.rows.lookup k else known k := by
  induction ks generalizing s known with
  | nil =>
      simp only [RowStore.lockAll, Option.some.injEq] at hlock
      subst hlock
      simpa using h
  | cons k ks ih =>
      simp only [RowStore.lockAll, Option.bind_eq_some_iff] at hlock
      obtain ⟨⟨row?, s₁⟩, hselect, hrest⟩ := hlock
      have hrows := selectForUpdate_rows hselect
      -- the rows after `k` add to what is known once `k` has been selected
      have hextend : ∀ known₁ : (k : κ) → Option (β k), s₁.Holds i ∅ known₁ →
          known₁ k = s.rows.lookup k → (∀ k', k' ≠ k → known₁ k' = known k') →
          s'.Holds i ∅ fun k' => if k' ∈ k :: ks then s.rows.lookup k' else known k' := by
        intro known₁ h₁ hk hother
        have hrest' := ih h₁ hrest
        refine ⟨hrest'.pending, fun k' row' hk' => hrest'.locked k' row' ?_,
          fun k' hk' _ => absurd hk' (AList.notMem_empty k')⟩
        rw [hrows, ← hk']
        by_cases hmem : k' ∈ ks
        · rw [if_pos hmem, if_pos (List.mem_cons_of_mem k hmem)]
        · rw [if_neg hmem]
          by_cases hkk : k' = k
          · subst hkk
            rw [hk, if_pos List.mem_cons_self]
          · rw [hother k' hkk, if_neg (by simp [hkk, hmem])]
      rcases h.selectForUpdate (AList.notMem_empty k) hselect with
        ⟨_, hnone, h₁⟩ | ⟨row, _, hrow, h₁⟩
      · refine hextend (Function.update known k none) ?_ ?_ ?_
        · refine ⟨h₁.pending, fun k' row' hk' => ?_,
            fun k' hk' _ => absurd hk' (AList.notMem_empty k')⟩
          by_cases hkk : k' = k
          · subst hkk
            rw [Function.update_self] at hk'
            cases hk'
          · rw [Function.update_of_ne hkk] at hk'
            exact h₁.locked k' row' hk'
        · rw [Function.update_self, hnone]
        · exact fun k' hkk => Function.update_of_ne hkk _ _
      · refine hextend (Function.update known k (some row)) h₁ ?_ ?_
        · rw [Function.update_self, hrow]
        · exact fun k' hkk => Function.update_of_ne hkk _ _

/-! ## What one statement writes -/

theorem update_pending {k k' : κ} {set : β k → β k} {check : β k → Bool}
    {result : Written (β k)} (h : s.update i k set check = some (result, s')) (hk : k' ≠ k) :
    (s'.pending i).lookup k' = (s.pending i).lookup k' := by
  rcases update_cases h with ⟨_, _, rfl⟩ | ⟨row, s₁, _, hacquire, hwrite⟩
  · rfl
  · have hpending := (acquire_spec hacquire).2.1
    rcases hwrite with ⟨_, _, rfl⟩ | ⟨_, _, rfl⟩
    · rw [hpending]
    · rw [put_pending, AList.lookup_insert_ne hk, hpending]

theorem insertRow_pending {k : κ} {row : β k} (h : s.insertRow i k row = some s') :
    s'.pending i = (s.pending i).insert k row := by
  obtain ⟨s₁, _, _, hacquire, rfl⟩ := insertRow_cases h
  rw [put_pending, (acquire_spec hacquire).2.1]

theorem insert_pending {index : (k : κ) → β k → Option υ} {k k' : κ} {u : υ} {row : β k}
    {result : Written (β k)} (h : s.insert index i k u row = some (result, s')) (hk : k' ≠ k) :
    (s'.pending i).lookup k' = (s.pending i).lookup k' := by
  rcases insert_cases h with ⟨_, rfl, _⟩ | ⟨s₁, s₂, _, _, _, hunique, hkey, _, rfl⟩
  · rfl
  · rw [put_pending, AList.lookup_insert_ne hk, (acquire_spec hkey).2.1,
      (acquire_spec hunique).2.1]

/-! ## A statement as others see it -/

/-- What a statement of transaction `i` other than its commit can do. -/
inductive Access (index : (k : κ) → β k → Option υ) (i : Nat) (s : RowStore κ υ β) :
    RowStore κ υ β → Prop where
  | none : Access index i s s
  | locked {ks s'} (h : s.lockAll i ks = some s') : Access index i s s'
  | updated {k set check result s'} (hindex : ∀ row, index k (set row) = index k row)
      (h : s.update i k set check = some (result, s')) : Access index i s s'
  | inserted {k row s'} (hindex : index k row = none)
      (h : s.insertRow i k row = some s') : Access index i s s'
  | insertedUnique {k u row result s'} (hindex : index k row = some u)
      (h : s.insert index i k u row = some (result, s')) : Access index i s s'

variable {index : (k : κ) → β k → Option υ}

theorem Access.selected {row : Option (β k)} (h : s.selectForUpdate i k = some (row, s')) :
    Access index i s s' := by
  have hlock : s.lockAll i [k] = some s' := by
    rw [lockAll, h]
    rfl
  exact .locked hlock

theorem Access.rows (h : Access index i s s') : s'.rows = s.rows := by
  cases h with
  | none => rfl
  | locked h => exact lockAll_rows h
  | updated _ h => exact update_rows h
  | inserted _ h => exact insertRow_rows h
  | insertedUnique _ h => exact insert_rows h

theorem Access.keeps (h : Access index i s s') {j : Nat} (hij : i ≠ j) : Keeps index j s s' := by
  cases h with
  | none => exact Keeps.refl j s
  | locked h => exact lockAll_keeps hij h
  | updated _ h => exact update_keeps hij h
  | inserted _ h => exact insertRow_keeps hij h
  | insertedUnique _ h => exact insert_keeps hij h

theorem Access.consistent (h : Access index i s s') (hs : s.Consistent index) :
    s'.Consistent index := by
  cases h with
  | none => exact hs
  | locked h => exact lockAll_consistent h hs
  | updated hindex h => exact update_consistent hindex h hs
  | inserted hindex h => exact insertRow_consistent hindex h hs
  | insertedUnique hindex h => exact insert_consistent hindex h hs

/-! ## The commit -/

theorem lookup_union_or (written rows : AList β) (k : κ) :
    (written ∪ rows).lookup k = (written.lookup k).or (rows.lookup k) := by
  by_cases hk : k ∈ written
  · rw [AList.lookup_union_left hk]
    obtain ⟨row, hrow⟩ := Option.isSome_iff_exists.mp (AList.lookup_isSome.mpr hk)
    rw [hrow, Option.some_or]
  · rw [AList.lookup_union_right hk, AList.lookup_eq_none.mpr hk, Option.none_or]

theorem lookup_union_of_none {written rows : AList β} {k : κ} (h : written.lookup k = none) :
    (written ∪ rows).lookup k = rows.lookup k := by
  rw [lookup_union_or, h, Option.none_or]

theorem lookup_union_of_some {written rows : AList β} {k : κ} {row : β k}
    (h : written.lookup k = some row) : (written ∪ rows).lookup k = some row := by
  rw [lookup_union_or, h, Option.some_or]

/-- A single written row leaves the others. -/
theorem lookup_single_union {rows : AList β} {k k' : κ} {row : β k} (h : k' ≠ k) :
    ((∅ : AList β).insert k row ∪ rows).lookup k' = rows.lookup k' := by
  apply lookup_union_of_none
  rw [AList.lookup_insert_ne h, AList.lookup_empty]

theorem Holds.commit_lookup (h : s.Holds i written known) (k : κ) :
    (s.commit i).rows.lookup k = (written.lookup k).or (s.rows.lookup k) := by
  rw [commit_rows, h.pending, lookup_union_or]

end RowStore
