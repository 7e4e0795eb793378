import SoaHomework.RowTotals

/-!
# A store of rows at READ COMMITTED

Rows are versioned per transaction: what a transaction has written is visible
to itself at once and to everybody after its commit. A row that a transaction
has selected `FOR UPDATE`, updated or inserted is locked until the transaction
ends, and a statement that needs a lock held by another transaction cannot be
executed. A unique index is locked at the value of an uncommitted row in the
same way. Transactions are named by numbers.

The frame lemmas say what the statements of one transaction leave alone for
another one (`Keeps`): its locks, its own writes, the committed rows it has
locked, and the absence of an index value it has locked. `Consistent` is what
the locking maintains: uncommitted rows are locked and the index is unique.
-/

set_option linter.unusedSectionVars false

/-- Rows of type `β k` under the keys `κ`, with unique-index values `υ`. -/
structure RowStore (κ υ : Type) (β : κ → Type) where
  rows : AList β
  pending : Nat → AList β
  locks : κ ⊕ υ → Option Nat

namespace RowStore

variable {κ υ : Type} {β : κ → Type} [DecidableEq κ] [DecidableEq υ]

/-- A store at rest: nothing uncommitted, nothing locked. -/
def ofRows (rows : AList β) : RowStore κ υ β := ⟨rows, fun _ => ∅, fun _ => none⟩

/-- What transaction `i` sees. -/
def view (s : RowStore κ υ β) (i : Nat) : AList β := s.pending i ∪ s.rows

def read (s : RowStore κ υ β) (i : Nat) (k : κ) : Option (β k) := (s.view i).lookup k

/-- Lock a row or an index value for transaction `i`, unless another holds it. -/
def acquire (s : RowStore κ υ β) (i : Nat) (l : κ ⊕ υ) : Option (RowStore κ υ β) :=
  match s.locks l with
  | none => some { s with locks := Function.update s.locks l (some i) }
  | some j => if j = i then some s else none

def put (s : RowStore κ υ β) (i : Nat) (k : κ) (row : β k) : RowStore κ υ β :=
  { s with pending := Function.update s.pending i ((s.pending i).insert k row) }

/-- `SELECT ... FOR UPDATE` of the row under `k`: the latest committed version
    once the lock is granted, and no lock when there is no such row. -/
def selectForUpdate (s : RowStore κ υ β) (i : Nat) (k : κ) :
    Option (Option (β k) × RowStore κ υ β) :=
  match s.read i k with
  | none => some (none, s)
  | some row => (s.acquire i (.inl k)).map fun s' => (some row, s')

/-- What a statement that writes a row reports. -/
inductive Written (row : Type) : Type where
  | missing
  | rejected
  | written (row : row)

/-- `UPDATE` of the row under `k`. The new row is rejected when a constraint
    `check` fails on it. -/
def update (s : RowStore κ υ β) (i : Nat) (k : κ) (set : β k → β k)
    (check : β k → Bool) : Option (Written (β k) × RowStore κ υ β) :=
  match s.read i k with
  | none => some (.missing, s)
  | some row =>
      (s.acquire i (.inl k)).map fun s' =>
        if check (set row) then (.written (set row), s'.put i k (set row))
        else (.rejected, s')

/-- `INSERT` of a row under the fresh key `k` with the value `u` of a unique
    index. The row is rejected when a visible row has that value, and the
    statement waits for a transaction that has inserted one. -/
def insert (s : RowStore κ υ β) (index : (k : κ) → β k → Option υ) (i : Nat) (k : κ)
    (u : υ) (row : β k) : Option (Written (β k) × RowStore κ υ β) :=
  if k ∈ s.rows ∨ (s.locks (.inl k)).isSome then none
  else if (s.view i).entries.any fun entry => index entry.1 entry.2 == some u then
    some (.rejected, s)
  else
    (s.acquire i (.inr u)).bind fun s' =>
      (s'.acquire i (.inl k)).map fun s'' => (.written row, s''.put i k row)

/-- `INSERT` of a row that no unique index covers, under the fresh key `k`. -/
def insertRow (s : RowStore κ υ β) (i : Nat) (k : κ) (row : β k) : Option (RowStore κ υ β) :=
  if k ∈ s.rows then none
  else if s.locks (.inl k) = none then (s.acquire i (.inl k)).map fun s' => s'.put i k row
  else none

/-- The end of transaction `i`, which leaves `rows` as the committed rows. -/
def finish (s : RowStore κ υ β) (i : Nat) (rows : AList β) : RowStore κ υ β where
  rows := rows
  pending := Function.update s.pending i ∅
  locks l := if s.locks l = some i then none else s.locks l

def commit (s : RowStore κ υ β) (i : Nat) : RowStore κ υ β := s.finish i (s.view i)

def rollback (s : RowStore κ υ β) (i : Nat) : RowStore κ υ β := s.finish i s.rows

/-- A transaction of its own that updates one row and commits, executed when
    nobody holds the row. -/
def overwrite (s : RowStore κ υ β) (k : κ) (set : β k → β k) : Option (RowStore κ υ β) :=
  match s.rows.lookup k with
  | none => none
  | some row =>
      if s.locks (.inl k) = none then some { s with rows := s.rows.insert k (set row) }
      else none

@[simp] theorem rollback_rows (s : RowStore κ υ β) (i : Nat) :
    (s.rollback i).rows = s.rows := rfl

@[simp] theorem commit_rows (s : RowStore κ υ β) (i : Nat) :
    (s.commit i).rows = s.pending i ∪ s.rows := rfl

@[simp] theorem put_rows (s : RowStore κ υ β) (i : Nat) (k : κ) (row : β k) :
    (s.put i k row).rows = s.rows := rfl

@[simp] theorem put_locks (s : RowStore κ υ β) (i : Nat) (k : κ) (row : β k) :
    (s.put i k row).locks = s.locks := rfl

@[simp] theorem put_pending (s : RowStore κ υ β) (i : Nat) (k : κ) (row : β k) :
    (s.put i k row).pending i = (s.pending i).insert k row :=
  Function.update_self _ _ _

/-- A row that the transaction has not written is read as committed. -/
theorem read_of_not_pending {s : RowStore κ υ β} {i : Nat} {k : κ} (h : k ∉ s.pending i) :
    s.read i k = s.rows.lookup k := AList.lookup_union_right h

theorem read_of_pending {s : RowStore κ υ β} {i : Nat} {k : κ} (h : k ∈ s.pending i) :
    s.read i k = (s.pending i).lookup k := AList.lookup_union_left h

/-! ## What one statement does -/

theorem acquire_spec {s s' : RowStore κ υ β} {i : Nat} {l : κ ⊕ υ}
    (h : s.acquire i l = some s') :
    s'.rows = s.rows ∧ s'.pending = s.pending ∧ s'.locks = Function.update s.locks l (some i) ∧
      (s.locks l = none ∨ s.locks l = some i) := by
  unfold acquire at h
  cases hl : s.locks l with
  | none =>
      simp only [hl, Option.some.injEq] at h
      subst h
      exact ⟨rfl, rfl, rfl, Or.inl rfl⟩
  | some j =>
      simp only [hl, Option.ite_none_right_eq_some, Option.some.injEq] at h
      obtain ⟨rfl, rfl⟩ := h
      refine ⟨rfl, rfl, ?_, Or.inr rfl⟩
      rw [← hl, Function.update_eq_self]

theorem acquire_self {s s' : RowStore κ υ β} {i : Nat} {l : κ ⊕ υ}
    (h : s.acquire i l = some s') : s'.locks l = some i := by
  obtain ⟨_, _, hlocks, _⟩ := acquire_spec h
  rw [hlocks, Function.update_self]

theorem acquire_held {s s' : RowStore κ υ β} {i j : Nat} {l l' : κ ⊕ υ}
    (h : s.acquire i l = some s') (hl' : s.locks l' = some j) : s'.locks l' = some j := by
  obtain ⟨_, _, hlocks, hfree⟩ := acquire_spec h
  rw [hlocks]
  by_cases hl : l' = l
  · subst hl
    rw [Function.update_self]
    rcases hfree with hnone | hown
    · rw [hnone] at hl'
      cases hl'
    · rw [← hown, hl']
  · rw [Function.update_of_ne hl, hl']

theorem selectForUpdate_cases {s s' : RowStore κ υ β} {i : Nat} {k : κ}
    {row : Option (β k)} (h : s.selectForUpdate i k = some (row, s')) :
    (s.read i k = none ∧ row = none ∧ s' = s) ∨
      (∃ found, s.read i k = some found ∧ row = some found ∧
        s.acquire i (.inl k) = some s') := by
  unfold selectForUpdate at h
  cases hread : s.read i k with
  | none =>
      simp only [hread, Option.some.injEq, Prod.mk.injEq] at h
      exact Or.inl ⟨rfl, h.1.symm, h.2.symm⟩
  | some found =>
      simp only [hread, Option.map_eq_some_iff, Prod.mk.injEq] at h
      obtain ⟨s₁, hacquire, rfl, rfl⟩ := h
      exact Or.inr ⟨found, rfl, rfl, hacquire⟩

theorem update_cases {s s' : RowStore κ υ β} {i : Nat} {k : κ} {set : β k → β k}
    {check : β k → Bool} {result : Written (β k)}
    (h : s.update i k set check = some (result, s')) :
    (s.read i k = none ∧ result = .missing ∧ s' = s) ∨
      ∃ row s₁, s.read i k = some row ∧ s.acquire i (.inl k) = some s₁ ∧
        ((check (set row) = false ∧ result = .rejected ∧ s' = s₁) ∨
          (check (set row) = true ∧ result = .written (set row) ∧
            s' = s₁.put i k (set row))) := by
  unfold update at h
  cases hread : s.read i k with
  | none =>
      simp only [hread, Option.some.injEq, Prod.mk.injEq] at h
      exact Or.inl ⟨rfl, h.1.symm, h.2.symm⟩
  | some row =>
      simp only [hread, Option.map_eq_some_iff] at h
      obtain ⟨s₁, hacquire, hresult⟩ := h
      refine Or.inr ⟨row, s₁, rfl, hacquire, ?_⟩
      cases hcheck : check (set row) with
      | false =>
          simp only [hcheck, Bool.false_eq_true, if_false, Prod.mk.injEq] at hresult
          exact Or.inl ⟨rfl, hresult.1.symm, hresult.2.symm⟩
      | true =>
          simp only [hcheck, if_true, Prod.mk.injEq] at hresult
          exact Or.inr ⟨rfl, hresult.1.symm, hresult.2.symm⟩

/-- No row has the index value `u`. -/
def Absent (index : (k : κ) → β k → Option υ) (rows : AList β) (u : υ) : Prop :=
  ∀ k row, rows.lookup k = some row → index k row ≠ some u

theorem absent_of_any_eq_false {index : (k : κ) → β k → Option υ} {rows : AList β} {u : υ}
    (h : (rows.entries.any fun entry => index entry.1 entry.2 == some u) = false) :
    Absent index rows u := by
  intro k row hrow heq
  have hmem : (⟨k, row⟩ : Sigma β) ∈ rows.entries := AList.mem_lookup_iff.mp hrow
  have := List.any_eq_false.mp h ⟨k, row⟩ hmem
  simp [heq] at this

theorem insert_cases {s s' : RowStore κ υ β} {index : (k : κ) → β k → Option υ} {i : Nat}
    {k : κ} {u : υ} {row : β k} {result : Written (β k)}
    (h : s.insert index i k u row = some (result, s')) :
    (result = .rejected ∧ s' = s ∧ ∃ k' row', s.read i k' = some row' ∧
        index k' row' = some u) ∨
      ∃ s₁ s₂, k ∉ s.rows ∧ s.locks (.inl k) = none ∧ Absent index (s.view i) u ∧
        s.acquire i (.inr u) = some s₁ ∧ s₁.acquire i (.inl k) = some s₂ ∧
        result = .written row ∧ s' = s₂.put i k row := by
  unfold insert at h
  by_cases hfresh : k ∈ s.rows ∨ (s.locks (.inl k)).isSome
  · rw [if_pos hfresh] at h
    cases h
  · rw [if_neg hfresh] at h
    simp only [not_or, Bool.not_eq_true, Option.isSome_eq_false_iff, Option.isNone_iff_eq_none]
      at hfresh
    cases hany : (s.view i).entries.any fun entry => index entry.1 entry.2 == some u with
    | true =>
        simp only [hany, if_true, Option.some.injEq, Prod.mk.injEq] at h
        obtain ⟨entry, hmem, hindex⟩ := List.any_eq_true.mp hany
        refine Or.inl ⟨h.1.symm, h.2.symm, entry.1, entry.2, ?_, by simpa using hindex⟩
        exact AList.mem_lookup_iff.mpr hmem
    | false =>
        simp only [hany, Bool.false_eq_true, if_false, Option.bind_eq_some_iff,
          Option.map_eq_some_iff, Prod.mk.injEq] at h
        obtain ⟨s₁, hu, s₂, hk, hresult, hs'⟩ := h
        exact Or.inr ⟨s₁, s₂, hfresh.1, hfresh.2, absent_of_any_eq_false hany, hu, hk,
          hresult.symm, hs'.symm⟩

theorem insertRow_cases {s s' : RowStore κ υ β} {i : Nat} {k : κ} {row : β k}
    (h : s.insertRow i k row = some s') :
    ∃ s₁, k ∉ s.rows ∧ s.locks (.inl k) = none ∧ s.acquire i (.inl k) = some s₁ ∧
      s' = s₁.put i k row := by
  unfold insertRow at h
  by_cases hfresh : k ∈ s.rows
  · rw [if_pos hfresh] at h
    cases h
  · rw [if_neg hfresh] at h
    by_cases hfree : s.locks (.inl k) = none
    · rw [if_pos hfree, Option.map_eq_some_iff] at h
      obtain ⟨s₁, hacquire, rfl⟩ := h
      exact ⟨s₁, hfresh, hfree, hacquire, rfl⟩
    · rw [if_neg hfree] at h
      cases h

/-! ## The committed rows change only at a commit -/

theorem selectForUpdate_rows {s s' : RowStore κ υ β} {i : Nat} {k : κ}
    {row : Option (β k)} (h : s.selectForUpdate i k = some (row, s')) : s'.rows = s.rows := by
  rcases selectForUpdate_cases h with ⟨_, _, rfl⟩ | ⟨_, _, _, hacquire⟩
  · rfl
  · exact (acquire_spec hacquire).1

theorem update_rows {s s' : RowStore κ υ β} {i : Nat} {k : κ} {set : β k → β k}
    {check : β k → Bool} {result : Written (β k)}
    (h : s.update i k set check = some (result, s')) : s'.rows = s.rows := by
  rcases update_cases h with ⟨_, _, rfl⟩ | ⟨row, s₁, _, hacquire, hwrite⟩
  · rfl
  · have hrows : s₁.rows = s.rows := (acquire_spec hacquire).1
    rcases hwrite with ⟨_, _, rfl⟩ | ⟨_, _, rfl⟩
    · exact hrows
    · exact hrows

theorem insert_rows {s s' : RowStore κ υ β} {index : (k : κ) → β k → Option υ} {i : Nat}
    {k : κ} {u : υ} {row : β k} {result : Written (β k)}
    (h : s.insert index i k u row = some (result, s')) : s'.rows = s.rows := by
  rcases insert_cases h with ⟨_, rfl, _⟩ | ⟨s₁, s₂, _, _, _, hu, hk, _, rfl⟩
  · rfl
  · exact (acquire_spec hk).1.trans (acquire_spec hu).1

theorem insertRow_rows {s s' : RowStore κ υ β} {i : Nat} {k : κ} {row : β k}
    (h : s.insertRow i k row = some s') : s'.rows = s.rows := by
  obtain ⟨s₁, _, _, hacquire, rfl⟩ := insertRow_cases h
  exact (acquire_spec hacquire).1

/-! ## A transaction that runs alone -/

/-- Nobody but transaction `i` holds a lock. -/
def Solitary (s : RowStore κ υ β) (i : Nat) : Prop := ∀ l j, s.locks l = some j → j = i

theorem solitary_ofRows (rows : AList β) (i : Nat) :
    (ofRows rows : RowStore κ υ β).Solitary i := by
  intro l j hl
  cases hl

/-- It never waits for a lock. -/
theorem Solitary.acquire {s : RowStore κ υ β} {i : Nat} (h : s.Solitary i) (l : κ ⊕ υ) :
    ∃ s', s.acquire i l = some s' ∧ s'.Solitary i := by
  have hsome : ∃ s', s.acquire i l = some s' := by
    unfold RowStore.acquire
    cases hl : s.locks l with
    | none => exact ⟨_, rfl⟩
    | some j => exact ⟨s, if_pos (h l j hl)⟩
  obtain ⟨s', hs'⟩ := hsome
  refine ⟨s', hs', fun l' j hl' => ?_⟩
  rw [(acquire_spec hs').2.2.1] at hl'
  by_cases hl : l' = l
  · subst hl
    rw [Function.update_self] at hl'
    exact (Option.some.inj hl').symm
  · rw [Function.update_of_ne hl] at hl'
    exact h l' j hl'

theorem Solitary.selectForUpdate {s : RowStore κ υ β} {i : Nat} (h : s.Solitary i) (k : κ) :
    ∃ row s', s.selectForUpdate i k = some (row, s') ∧ s'.Solitary i := by
  unfold RowStore.selectForUpdate
  cases s.read i k with
  | none => exact ⟨none, s, rfl, h⟩
  | some row =>
      obtain ⟨s', hs', hsolitary⟩ := h.acquire (.inl k)
      exact ⟨some row, s', by rw [hs']; rfl, hsolitary⟩

theorem Solitary.update {s : RowStore κ υ β} {i : Nat} (h : s.Solitary i) (k : κ)
    (set : β k → β k) (check : β k → Bool) :
    ∃ result s', s.update i k set check = some (result, s') ∧ s'.Solitary i := by
  unfold RowStore.update
  cases s.read i k with
  | none => exact ⟨.missing, s, rfl, h⟩
  | some row =>
      obtain ⟨s', hs', hsolitary⟩ := h.acquire (.inl k)
      simp only [hs', Option.map_some]
      split
      · exact ⟨_, _, rfl, hsolitary⟩
      · exact ⟨_, _, rfl, hsolitary⟩

theorem Solitary.finish {s : RowStore κ υ β} {i : Nat} (h : s.Solitary i) (rows : AList β) :
    (s.finish i rows).Solitary i := by
  intro l j hl
  simp only [RowStore.finish] at hl
  split at hl
  · cases hl
  · exact h l j hl

/-! ## What the other transactions keep -/

/-- Transaction `i` holds nothing. -/
structure Idle (s : RowStore κ υ β) (i : Nat) : Prop where
  pending : s.pending i = ∅
  locks : ∀ l, s.locks l ≠ some i

section Index

variable (index : (k : κ) → β k → Option υ)

/-- From `s` to `s'` nothing that transaction `i` holds has changed. -/
structure Keeps (i : Nat) (s s' : RowStore κ υ β) : Prop where
  pending : s'.pending i = s.pending i
  locks : ∀ l, s'.locks l = some i ↔ s.locks l = some i
  rows : ∀ k, s.locks (.inl k) = some i → s'.rows.lookup k = s.rows.lookup k
  absent : ∀ u, s.locks (.inr u) = some i → Absent index s.rows u → Absent index s'.rows u

/-- What the locking maintains: an uncommitted row is locked by the transaction
    that wrote it; it keeps its index value, and when it is a new row that value
    is locked too and not among the committed ones; no value is there twice. -/
structure Consistent (s : RowStore κ υ β) : Prop where
  locked : ∀ i k, k ∈ s.pending i → s.locks (.inl k) = some i
  indexed : ∀ i k row, (s.pending i).lookup k = some row →
    (∃ old, s.rows.lookup k = some old ∧ index k row = index k old) ∨
      (k ∉ s.rows ∧ ∀ u, index k row = some u →
        s.locks (.inr u) = some i ∧ Absent index s.rows u)
  distinct : ∀ i k k' row row' u, (s.pending i).lookup k = some row →
    (s.pending i).lookup k' = some row' → index k row = some u → index k' row' = some u →
    k = k'
  unique : ∀ k k' row row' u, s.rows.lookup k = some row → s.rows.lookup k' = some row' →
    index k row = some u → index k' row' = some u → k = k'

variable {index}

theorem Keeps.refl (i : Nat) (s : RowStore κ υ β) : Keeps index i s s :=
  ⟨rfl, fun _ => Iff.rfl, fun _ _ => rfl, fun _ _ h => h⟩

theorem Keeps.trans {i : Nat} {s s' s'' : RowStore κ υ β} (h : Keeps index i s s')
    (h' : Keeps index i s' s'') : Keeps index i s s'' where
  pending := h'.pending.trans h.pending
  locks l := (h'.locks l).trans (h.locks l)
  rows k hk := (h'.rows k ((h.locks _).mpr hk)).trans (h.rows k hk)
  absent u hu habsent := h'.absent u ((h.locks _).mpr hu) (h.absent u hu habsent)

theorem Keeps.idle {i : Nat} {s s' : RowStore κ υ β} (h : Keeps index i s s')
    (hi : s.Idle i) : s'.Idle i where
  pending := h.pending.trans hi.pending
  locks l hl := hi.locks l ((h.locks l).mp hl)

theorem idle_ofRows (rows : AList β) (i : Nat) :
    (ofRows rows : RowStore κ υ β).Idle i :=
  ⟨rfl, fun l hl => by simp [ofRows] at hl⟩

theorem consistent_ofRows {rows : AList β}
    (hunique : ∀ k k' row row' u, rows.lookup k = some row → rows.lookup k' = some row' →
      index k row = some u → index k' row' = some u → k = k') :
    (ofRows rows : RowStore κ υ β).Consistent index where
  locked i k hk := by simp [ofRows] at hk
  indexed i k row hk := by simp [ofRows] at hk
  distinct i k k' row row' u hk := by simp [ofRows] at hk
  unique := hunique

theorem acquire_keeps {s s' : RowStore κ υ β} {i j : Nat} {l : κ ⊕ υ} (hij : i ≠ j)
    (h : s.acquire i l = some s') : Keeps index j s s' := by
  obtain ⟨hrows, hpending, hlocks, hfree⟩ := acquire_spec h
  refine ⟨by rw [hpending], fun l' => ⟨fun hl' => ?_, acquire_held h⟩,
    fun k _ => by rw [hrows], fun u _ habsent => by rw [hrows]; exact habsent⟩
  rw [hlocks] at hl'
  by_cases hl : l' = l
  · subst hl
    rw [Function.update_self] at hl'
    exact absurd (Option.some.inj hl') hij
  · rwa [Function.update_of_ne hl] at hl'

theorem acquire_consistent {s s' : RowStore κ υ β} {i : Nat} {l : κ ⊕ υ}
    (h : s.acquire i l = some s') (hs : s.Consistent index) : s'.Consistent index := by
  obtain ⟨hrows, hpending, _, _⟩ := acquire_spec h
  refine ⟨fun j k hk => ?_, fun j k row hk => ?_, ?_, ?_⟩
  · rw [hpending] at hk
    exact acquire_held h (hs.locked j k hk)
  · rw [hpending] at hk
    rw [hrows]
    rcases hs.indexed j k row hk with hold | ⟨hfresh, hnew⟩
    · exact Or.inl hold
    · refine Or.inr ⟨hfresh, fun u hu => ?_⟩
      exact ⟨acquire_held h (hnew u hu).1, (hnew u hu).2⟩
  · rw [hpending]
    exact hs.distinct
  · rw [hrows]
    exact hs.unique

theorem put_keeps {s : RowStore κ υ β} {i j : Nat} (hij : i ≠ j) (k : κ) (row : β k) :
    Keeps index j s (s.put i k row) where
  pending := Function.update_of_ne (Ne.symm hij) _ _
  locks _ := Iff.rfl
  rows _ _ := rfl
  absent _ _ habsent := habsent

private theorem lookup_put {s : RowStore κ υ β} {i j : Nat} {k k' : κ} {row : β k}
    {row' : β k'} (h : ((s.put i k row).pending j).lookup k' = some row') :
    (j = i ∧ ∃ heq : k = k', heq ▸ row = row') ∨
      ((j = i → k' ≠ k) ∧ (s.pending j).lookup k' = some row') := by
  by_cases hj : j = i
  · subst hj
    rw [put_pending] at h
    by_cases hk : k' = k
    · subst hk
      rw [AList.lookup_insert, Option.some.injEq] at h
      exact Or.inl ⟨rfl, rfl, h⟩
    · rw [AList.lookup_insert_ne hk] at h
      exact Or.inr ⟨fun _ => hk, h⟩
  · refine Or.inr ⟨fun heq => absurd heq hj, ?_⟩
    simpa only [put, Function.update_of_ne hj] using h

/-- An index value that a transaction does not see is not committed either. -/
theorem absent_of_view {s : RowStore κ υ β} {i : Nat} {u : υ} (hs : s.Consistent index)
    (h : Absent index (s.view i) u) : Absent index s.rows u := by
  intro k row hrow heq
  by_cases hk : k ∈ s.pending i
  · obtain ⟨new, hnew⟩ := Option.isSome_iff_exists.mp (AList.lookup_isSome.mpr hk)
    have hview : (s.view i).lookup k = some new := by
      rw [view, AList.lookup_union_left hk, hnew]
    rcases hs.indexed i k new hnew with ⟨old, hold, hsame⟩ | ⟨hfresh, _⟩
    · rw [hrow, Option.some.injEq] at hold
      subst hold
      exact h k new hview (hsame.trans heq)
    · exact hfresh (AList.lookup_isSome.mp (by rw [hrow]; rfl))
  · exact h k row (by rw [view, AList.lookup_union_right hk, hrow]) heq

/-- An index value is at most once in what a transaction has written or sees. -/
theorem key_of_index {s : RowStore κ υ β} {i : Nat} {k k' : κ} {row : β k} {row' : β k'}
    {u : υ} (hs : s.Consistent index) (hread : s.read i k = some row)
    (hpending : (s.pending i).lookup k' = some row') (hu : index k row = some u)
    (hu' : index k' row' = some u) : k = k' := by
  by_cases hk : k ∈ s.pending i
  · rw [read_of_pending hk] at hread
    exact hs.distinct i k k' row row' u hread hpending hu hu'
  · rw [read_of_not_pending hk] at hread
    rcases hs.indexed i k' row' hpending with ⟨old, hold, hsame⟩ | ⟨_, hnew⟩
    · exact hs.unique k k' row old u hread hold hu (hsame.symm.trans hu')
    · exact absurd hu ((hnew u hu').2 k row hread)

/-- Rewriting a locked row under its index value keeps the store consistent. -/
theorem put_update_consistent {s : RowStore κ υ β} {i : Nat} {k : κ} {old row : β k}
    (hs : s.Consistent index) (hlock : s.locks (.inl k) = some i)
    (hread : s.read i k = some old) (hindex : index k row = index k old) :
    (s.put i k row).Consistent index := by
  have hcases : (∃ committed, s.rows.lookup k = some committed ∧
      index k row = index k committed) ∨ (s.pending i).lookup k = some old := by
    by_cases hk : k ∈ s.pending i
    · rw [read_of_pending hk] at hread
      exact Or.inr hread
    · rw [read_of_not_pending hk] at hread
      exact Or.inl ⟨old, hread, hindex⟩
  refine ⟨fun j k' hk' => ?_, fun j k' row' hrow' => ?_, ?_, hs.unique⟩
  · obtain ⟨row', hrow'⟩ := Option.isSome_iff_exists.mp (AList.lookup_isSome.mpr hk')
    rcases lookup_put hrow' with ⟨rfl, rfl, _⟩ | ⟨_, hold⟩
    · exact hlock
    · exact hs.locked j k' (AList.lookup_isSome.mp (by rw [hold]; rfl))
  · rcases lookup_put hrow' with ⟨rfl, rfl, rfl⟩ | ⟨_, hold⟩
    · rcases hcases with hcommitted | hpending
      · exact Or.inl hcommitted
      · rcases hs.indexed j k old hpending with ⟨committed, hc, hsame⟩ | ⟨hfresh, hnew⟩
        · exact Or.inl ⟨committed, hc, hindex.trans hsame⟩
        · exact Or.inr ⟨hfresh, fun u hu => hnew u (hindex.symm.trans hu)⟩
    · exact hs.indexed j k' row' hold
  · intro j k₁ k₂ row₁ row₂ u h₁ h₂ hu₁ hu₂
    rcases lookup_put h₁ with ⟨rfl, rfl, rfl⟩ | ⟨_, hold₁⟩
    · rcases lookup_put h₂ with ⟨_, rfl, _⟩ | ⟨_, hold₂⟩
      · rfl
      · exact key_of_index hs hread hold₂ (hindex.symm.trans hu₁) hu₂
    · rcases lookup_put h₂ with ⟨rfl, rfl, rfl⟩ | ⟨_, hold₂⟩
      · exact (key_of_index hs hread hold₁ (hindex.symm.trans hu₂) hu₁).symm
      · exact hs.distinct j k₁ k₂ row₁ row₂ u hold₁ hold₂ hu₁ hu₂

/-- Inserting a row with a locked and unseen index value keeps the store
    consistent. -/
theorem put_insert_consistent {s : RowStore κ υ β} {i : Nat} {k : κ} {u : υ} {row : β k}
    (hs : s.Consistent index) (hlock : s.locks (.inl k) = some i)
    (hu : s.locks (.inr u) = some i) (hfresh : k ∉ s.rows)
    (habsent : Absent index (s.view i) u)
    (hindex : ∀ u', index k row = some u' → u' = u) : (s.put i k row).Consistent index := by
  have hunseen : ∀ k' row', (s.pending i).lookup k' = some row' → index k' row' ≠ some u := by
    intro k' row' hrow'
    refine habsent k' row' ?_
    rw [view, AList.lookup_union_left (AList.lookup_isSome.mp (by rw [hrow']; rfl)), hrow']
  have hrows : Absent index s.rows u := absent_of_view hs habsent
  refine ⟨fun j k' hk' => ?_, fun j k' row' hrow' => ?_, ?_, hs.unique⟩
  · obtain ⟨row', hrow'⟩ := Option.isSome_iff_exists.mp (AList.lookup_isSome.mpr hk')
    rcases lookup_put hrow' with ⟨rfl, rfl, _⟩ | ⟨_, hold⟩
    · exact hlock
    · exact hs.locked j k' (AList.lookup_isSome.mp (by rw [hold]; rfl))
  · rcases lookup_put hrow' with ⟨rfl, rfl, rfl⟩ | ⟨_, hold⟩
    · refine Or.inr ⟨hfresh, fun u' hu' => ?_⟩
      rw [hindex u' hu']
      exact ⟨hu, hrows⟩
    · exact hs.indexed j k' row' hold
  · intro j k₁ k₂ row₁ row₂ u' h₁ h₂ hu₁ hu₂
    rcases lookup_put h₁ with ⟨rfl, rfl, rfl⟩ | ⟨_, hold₁⟩
    · rcases lookup_put h₂ with ⟨_, rfl, _⟩ | ⟨_, hold₂⟩
      · rfl
      · rw [hindex u' hu₁] at hu₂
        exact absurd hu₂ (hunseen k₂ row₂ hold₂)
    · rcases lookup_put h₂ with ⟨rfl, rfl, rfl⟩ | ⟨_, hold₂⟩
      · rw [hindex u' hu₂] at hu₁
        exact absurd hu₁ (hunseen k₁ row₁ hold₁)
      · exact hs.distinct j k₁ k₂ row₁ row₂ u' hold₁ hold₂ hu₁ hu₂

theorem selectForUpdate_keeps {s s' : RowStore κ υ β} {i j : Nat} {k : κ}
    {row : Option (β k)} (hij : i ≠ j) (h : s.selectForUpdate i k = some (row, s')) :
    Keeps index j s s' := by
  rcases selectForUpdate_cases h with ⟨_, _, rfl⟩ | ⟨_, _, _, hacquire⟩
  · exact Keeps.refl j s'
  · exact acquire_keeps hij hacquire

theorem selectForUpdate_consistent {s s' : RowStore κ υ β} {i : Nat} {k : κ}
    {row : Option (β k)} (h : s.selectForUpdate i k = some (row, s'))
    (hs : s.Consistent index) : s'.Consistent index := by
  rcases selectForUpdate_cases h with ⟨_, _, rfl⟩ | ⟨_, _, _, hacquire⟩
  · exact hs
  · exact acquire_consistent hacquire hs

theorem update_keeps {s s' : RowStore κ υ β} {i j : Nat} {k : κ} {set : β k → β k}
    {check : β k → Bool} {result : Written (β k)} (hij : i ≠ j)
    (h : s.update i k set check = some (result, s')) : Keeps index j s s' := by
  rcases update_cases h with ⟨_, _, rfl⟩ | ⟨row, s₁, _, hacquire, hwrite⟩
  · exact Keeps.refl j s'
  · rcases hwrite with ⟨_, _, rfl⟩ | ⟨_, _, rfl⟩
    · exact acquire_keeps hij hacquire
    · exact (acquire_keeps hij hacquire).trans (put_keeps hij k _)

theorem acquire_read {s s' : RowStore κ υ β} {i j : Nat} {l : κ ⊕ υ} (k : κ)
    (h : s.acquire i l = some s') : s'.read j k = s.read j k := by
  obtain ⟨hrows, hpending, _, _⟩ := acquire_spec h
  simp only [read, view, hrows, hpending]

theorem update_consistent {s s' : RowStore κ υ β} {i : Nat} {k : κ} {set : β k → β k}
    {check : β k → Bool} {result : Written (β k)}
    (hindex : ∀ row, index k (set row) = index k row)
    (h : s.update i k set check = some (result, s')) (hs : s.Consistent index) :
    s'.Consistent index := by
  rcases update_cases h with ⟨_, _, rfl⟩ | ⟨row, s₁, hread, hacquire, hwrite⟩
  · exact hs
  · have hs₁ := acquire_consistent hacquire hs
    rcases hwrite with ⟨_, _, rfl⟩ | ⟨_, _, rfl⟩
    · exact hs₁
    · exact put_update_consistent hs₁ (acquire_self hacquire)
        ((acquire_read k hacquire).trans hread) (hindex row)

theorem insert_keeps {s s' : RowStore κ υ β} {i j : Nat} {k : κ} {u : υ} {row : β k}
    {result : Written (β k)} (hij : i ≠ j)
    (h : s.insert index i k u row = some (result, s')) : Keeps index j s s' := by
  rcases insert_cases h with ⟨_, rfl, _⟩ | ⟨s₁, s₂, _, _, _, hu, hk, _, rfl⟩
  · exact Keeps.refl j s'
  · exact ((acquire_keeps hij hu).trans (acquire_keeps hij hk)).trans (put_keeps hij k row)

theorem insert_consistent {s s' : RowStore κ υ β} {i : Nat} {k : κ} {u : υ} {row : β k}
    {result : Written (β k)} (hindex : index k row = some u)
    (h : s.insert index i k u row = some (result, s')) (hs : s.Consistent index) :
    s'.Consistent index := by
  rcases insert_cases h with ⟨_, rfl, _⟩ | ⟨s₁, s₂, hfresh, _, habsent, hu, hk, _, rfl⟩
  · exact hs
  · obtain ⟨hrows₁, hpending₁, _, _⟩ := acquire_spec hu
    obtain ⟨hrows₂, hpending₂, _, _⟩ := acquire_spec hk
    refine put_insert_consistent (acquire_consistent hk (acquire_consistent hu hs))
      (acquire_self hk) (acquire_held hk (acquire_self hu)) (u := u) ?_ ?_ ?_
    · rw [hrows₂, hrows₁]
      exact hfresh
    · simpa only [view, hrows₂, hrows₁, hpending₂, hpending₁] using habsent
    · intro u' hu'
      rw [hindex, Option.some.injEq] at hu'
      exact hu'.symm

theorem insertRow_keeps {s s' : RowStore κ υ β} {i j : Nat} {k : κ} {row : β k}
    (hij : i ≠ j) (h : s.insertRow i k row = some s') : Keeps index j s s' := by
  obtain ⟨s₁, _, _, hacquire, rfl⟩ := insertRow_cases h
  exact (acquire_keeps hij hacquire).trans (put_keeps hij k row)

theorem insertRow_consistent {s s' : RowStore κ υ β} {i : Nat} {k : κ} {row : β k}
    (hindex : index k row = none) (h : s.insertRow i k row = some s')
    (hs : s.Consistent index) : s'.Consistent index := by
  obtain ⟨s₁, hfresh, _, hacquire, rfl⟩ := insertRow_cases h
  have hrows := (acquire_spec hacquire).1
  have hs₁ := acquire_consistent hacquire hs
  refine ⟨fun j k' hk' => ?_, fun j k' row' hrow' => ?_, ?_, hs₁.unique⟩
  · obtain ⟨row', hrow'⟩ := Option.isSome_iff_exists.mp (AList.lookup_isSome.mpr hk')
    rcases lookup_put hrow' with ⟨rfl, rfl, _⟩ | ⟨_, hold⟩
    · rw [put_locks]
      exact acquire_self hacquire
    · exact hs₁.locked j k' (AList.lookup_isSome.mp (by rw [hold]; rfl))
  · rcases lookup_put hrow' with ⟨rfl, rfl, rfl⟩ | ⟨_, hold⟩
    · refine Or.inr ⟨?_, fun u hu => ?_⟩
      · rw [put_rows, hrows]
        exact hfresh
      · rw [hindex] at hu
        cases hu
    · exact hs₁.indexed j k' row' hold
  · intro j k₁ k₂ row₁ row₂ u h₁ h₂ hu₁ hu₂
    rcases lookup_put h₁ with ⟨rfl, rfl, rfl⟩ | ⟨_, hold₁⟩
    · rw [hindex] at hu₁
      cases hu₁
    · rcases lookup_put h₂ with ⟨rfl, rfl, rfl⟩ | ⟨_, hold₂⟩
      · rw [hindex] at hu₂
        cases hu₂
      · exact hs₁.distinct j k₁ k₂ row₁ row₂ u hold₁ hold₂ hu₁ hu₂

/-! ## The end of a transaction -/

theorem finish_idle (s : RowStore κ υ β) (i : Nat) (rows : AList β) :
    (s.finish i rows).Idle i where
  pending := Function.update_self _ _ _
  locks l hl := by
    simp only [finish] at hl
    split at hl
    · cases hl
    · contradiction

theorem finish_locks {s : RowStore κ υ β} {i j : Nat} {rows : AList β} (hij : i ≠ j)
    (l : κ ⊕ υ) : (s.finish i rows).locks l = some j ↔ s.locks l = some j := by
  simp only [finish]
  split
  · rename_i hl
    simp [hl, hij]
  · exact Iff.rfl

theorem finish_keeps {s : RowStore κ υ β} {i j : Nat} {rows : AList β} (hij : i ≠ j)
    (hrows : ∀ k, s.locks (.inl k) = some j → rows.lookup k = s.rows.lookup k)
    (habsent : ∀ u, s.locks (.inr u) = some j → Absent index s.rows u → Absent index rows u) :
    Keeps index j s (s.finish i rows) where
  pending := Function.update_of_ne (Ne.symm hij) _ _
  locks := finish_locks hij
  rows := hrows
  absent := habsent

theorem rollback_keeps {s : RowStore κ υ β} {i j : Nat} (hij : i ≠ j) :
    Keeps index j s (s.rollback i) :=
  finish_keeps hij (fun _ _ => rfl) fun _ _ h => h

/-- A row of the committed view is written by the transaction or committed
    before. -/
theorem view_cases {s : RowStore κ υ β} {i : Nat} {k : κ} {row : β k}
    (h : (s.view i).lookup k = some row) :
    (s.pending i).lookup k = some row ∨ (k ∉ s.pending i ∧ s.rows.lookup k = some row) := by
  by_cases hk : k ∈ s.pending i
  · rw [view, AList.lookup_union_left hk] at h
    exact Or.inl h
  · rw [view, AList.lookup_union_right hk] at h
    exact Or.inr ⟨hk, h⟩

theorem commit_absent {s : RowStore κ υ β} {i j : Nat} {u : υ} (hij : i ≠ j)
    (hs : s.Consistent index) (hu : s.locks (.inr u) = some j)
    (habsent : Absent index s.rows u) : Absent index (s.view i) u := by
  intro k row hrow heq
  rcases view_cases hrow with hpending | ⟨_, hold⟩
  · rcases hs.indexed i k row hpending with ⟨old, hold, hsame⟩ | ⟨_, hnew⟩
    · exact habsent k old hold (hsame.symm.trans heq)
    · rw [(hnew u heq).1] at hu
      exact hij (Option.some.inj hu)
  · exact habsent k row hold heq

theorem commit_keeps {s : RowStore κ υ β} {i j : Nat} (hij : i ≠ j)
    (hs : s.Consistent index) : Keeps index j s (s.commit i) := by
  refine finish_keeps hij (fun k hk => ?_) fun u hu => commit_absent hij hs hu
  refine AList.lookup_union_right fun hmem => hij ?_
  have hi := hs.locked i k hmem
  rw [hk] at hi
  exact (Option.some.inj hi).symm

private theorem finish_consistent {s : RowStore κ υ β} {i : Nat} {rows : AList β}
    (hs : s.Consistent index)
    (hrows : ∀ k, s.locks (.inl k) ≠ some i → rows.lookup k = s.rows.lookup k)
    (habsent : ∀ j u, i ≠ j → s.locks (.inr u) = some j → Absent index s.rows u →
      Absent index rows u)
    (hunique : ∀ k k' row row' u, rows.lookup k = some row → rows.lookup k' = some row' →
      index k row = some u → index k' row' = some u → k = k') :
    (s.finish i rows).Consistent index := by
  have hpending : ∀ j, j ≠ i → (s.finish i rows).pending j = s.pending j :=
    fun j hj => Function.update_of_ne hj _ _
  have hempty : (s.finish i rows).pending i = ∅ := Function.update_self _ _ _
  refine ⟨fun j k hk => ?_, fun j k row hk => ?_, fun j => ?_, hunique⟩
  · by_cases hj : j = i
    · subst hj
      rw [hempty] at hk
      exact absurd hk (AList.notMem_empty k)
    · rw [hpending j hj] at hk
      exact (finish_locks (Ne.symm hj) _).mpr (hs.locked j k hk)
  · by_cases hj : j = i
    · subst hj
      rw [hempty, AList.lookup_empty] at hk
      cases hk
    · rw [hpending j hj] at hk
      have hlock := hs.locked j k (AList.lookup_isSome.mp (by rw [hk]; rfl))
      have hsame : rows.lookup k = s.rows.lookup k := by
        refine hrows k fun heq => hj ?_
        rw [hlock] at heq
        exact Option.some.inj heq
      rcases hs.indexed j k row hk with ⟨old, hold, hindex⟩ | ⟨hfresh, hnew⟩
      · exact Or.inl ⟨old, hsame.trans hold, hindex⟩
      · refine Or.inr ⟨fun hmem => hfresh ?_, fun u hu => ?_⟩
        · rw [← AList.lookup_isSome] at hmem ⊢
          rw [← hsame]
          exact hmem
        · exact ⟨(finish_locks (Ne.symm hj) _).mpr (hnew u hu).1,
            habsent j u (Ne.symm hj) (hnew u hu).1 (hnew u hu).2⟩
  · by_cases hj : j = i
    · subst hj
      rw [hempty]
      intro k k' row row' u hk
      rw [AList.lookup_empty] at hk
      cases hk
    · rw [hpending j hj]
      exact hs.distinct j

theorem rollback_consistent {s : RowStore κ υ β} (i : Nat) (hs : s.Consistent index) :
    (s.rollback i).Consistent index :=
  finish_consistent hs (fun _ _ => rfl) (fun _ _ _ _ h => h) hs.unique

theorem commit_consistent {s : RowStore κ υ β} (i : Nat) (hs : s.Consistent index) :
    (s.commit i).Consistent index := by
  refine finish_consistent hs (fun k hk => ?_) (fun j u hij => commit_absent hij hs) ?_
  · exact AList.lookup_union_right fun hmem => hk (hs.locked i k hmem)
  · intro k k' row row' u hk hk' hu hu'
    rcases view_cases hk with hnew | ⟨_, hold⟩
    · rcases view_cases hk' with hnew' | ⟨_, hold'⟩
      · exact hs.distinct i k k' row row' u hnew hnew' hu hu'
      · exact (key_of_index hs hk' hnew hu' hu).symm
    · rcases view_cases hk' with hnew' | ⟨_, hold'⟩
      · exact key_of_index hs hk hnew' hu hu'
      · exact hs.unique k k' row row' u hold hold' hu hu'

/-! ## A transaction of one statement -/

theorem overwrite_cases {s s' : RowStore κ υ β} {k : κ} {set : β k → β k}
    (h : s.overwrite k set = some s') :
    ∃ row, s.rows.lookup k = some row ∧ s.locks (.inl k) = none ∧
      s' = { s with rows := s.rows.insert k (set row) } := by
  unfold overwrite at h
  cases hrow : s.rows.lookup k with
  | none => simp [hrow] at h
  | some row =>
      simp only [hrow, Option.ite_none_right_eq_some, Option.some.injEq] at h
      exact ⟨row, rfl, h.1, h.2.symm⟩

/-- Each row has the index value it had. -/
private theorem index_of_overwrite {s s' : RowStore κ υ β} {k : κ} {set : β k → β k}
    (hindex : ∀ row, index k (set row) = index k row)
    (h : s.overwrite k set = some s') {k' : κ} {row : β k'}
    (hrow : s'.rows.lookup k' = some row) :
    ∃ old, s.rows.lookup k' = some old ∧ index k' row = index k' old := by
  obtain ⟨old, hold, _, rfl⟩ := overwrite_cases h
  by_cases hk : k' = k
  · subst hk
    simp only [AList.lookup_insert, Option.some.injEq] at hrow
    exact ⟨old, hold, by rw [← hrow, hindex]⟩
  · simp only [AList.lookup_insert_ne hk] at hrow
    exact ⟨row, hrow, rfl⟩

theorem overwrite_keeps {s s' : RowStore κ υ β} {j : Nat} {k : κ} {set : β k → β k}
    (hindex : ∀ row, index k (set row) = index k row)
    (h : s.overwrite k set = some s') : Keeps index j s s' := by
  have hsame := @index_of_overwrite _ _ _ _ _ index s s' k set hindex h
  obtain ⟨old, hold, hfree, rfl⟩ := overwrite_cases h
  refine ⟨rfl, fun _ => Iff.rfl, fun k' hk' => ?_, fun u _ habsent k' row hrow heq => ?_⟩
  · refine AList.lookup_insert_ne ?_
    rintro rfl
    rw [hfree] at hk'
    cases hk'
  · obtain ⟨old', hold', hi⟩ := hsame hrow
    exact habsent k' old' hold' (hi.symm.trans heq)

theorem overwrite_consistent {s s' : RowStore κ υ β} {k : κ} {set : β k → β k}
    (hindex : ∀ row, index k (set row) = index k row)
    (h : s.overwrite k set = some s') (hs : s.Consistent index) : s'.Consistent index := by
  have hsame := @index_of_overwrite _ _ _ _ _ index s s' k set hindex h
  have hkeeps := fun j => overwrite_keeps (j := j) hindex h
  obtain ⟨old, hold, hfree, rfl⟩ := overwrite_cases h
  refine ⟨hs.locked, fun i k' row' hk' => ?_, hs.distinct, ?_⟩
  · have hlock := hs.locked i k' (AList.lookup_isSome.mp (by rw [hk']; rfl))
    have hlookup := (hkeeps i).rows k' hlock
    rcases hs.indexed i k' row' hk' with ⟨before, hbefore, hi⟩ | ⟨hfresh, hnew⟩
    · exact Or.inl ⟨before, hlookup.trans hbefore, hi⟩
    · refine Or.inr ⟨fun hmem => hfresh ?_, fun u hu => ?_⟩
      · rw [← AList.lookup_isSome] at hmem ⊢
        rwa [hlookup] at hmem
      · exact ⟨(hnew u hu).1, (hkeeps i).absent u (hnew u hu).1 (hnew u hu).2⟩
  · intro k₁ k₂ row₁ row₂ u h₁ h₂ hu₁ hu₂
    obtain ⟨old₁, hold₁, hi₁⟩ := hsame h₁
    obtain ⟨old₂, hold₂, hi₂⟩ := hsame h₂
    exact hs.unique k₁ k₂ old₁ old₂ u hold₁ hold₂ (hi₁.symm.trans hu₁) (hi₂.symm.trans hu₂)

end Index

end RowStore
