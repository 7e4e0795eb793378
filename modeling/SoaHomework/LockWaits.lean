import Mathlib.Data.Set.Basic
import Mathlib.Logic.Relation
import SoaHomework.RowStore

/-!
# Waiting for locks

When a statement of a row store cannot be executed, another transaction holds
the lock it needs. A relation of waiting along which a rank falls has no cycle,
so transactions that wait in the order of such a rank never deadlock.
-/

set_option linter.unusedSectionVars false

/-- A transaction that is itself waited for by a waiting one has the smaller
    rank, so nobody waits for itself through others. -/
theorem Relation.acyclic_of_rank {ι : Type} {R : ι → ι → Prop} (rank : ι → Nat)
    (hrank : ∀ i j k, R i j → R j k → rank j < rank i) (i : ι) :
    ¬ Relation.TransGen R i i := by
  have hfalls : ∀ j, Relation.TransGen R i j → ∀ k, R j k → rank j < rank i := by
    intro j hpath
    induction hpath with
    | single hij => exact fun k hjk => hrank i _ k hij hjk
    | @tail j j' _ hjj' ih =>
        intro k hj'k
        exact Nat.lt_trans (hrank j j' k hjj' hj'k) (ih j' hjj')
  intro hcycle
  obtain ⟨j, hij, _⟩ := Relation.TransGen.head'_iff.mp hcycle
  exact Nat.lt_irrefl _ (hfalls i hcycle j hij)

namespace RowStore

variable {κ υ : Type} {β : κ → Type} [DecidableEq κ] [DecidableEq υ]
  {s s' : RowStore κ υ β} {i j : Nat} {k : κ}

/-- Transaction `j` keeps transaction `i` from the lock `l`. -/
def Withholds (s : RowStore κ υ β) (j i : Nat) (l : κ ⊕ υ) : Prop :=
  s.locks l = some j ∧ i ≠ j

theorem acquire_eq_none {l : κ ⊕ υ} : s.acquire i l = none ↔ ∃ j, s.Withholds j i l := by
  unfold acquire Withholds
  cases hl : s.locks l with
  | none => simp
  | some j =>
      simp only [ite_eq_right_iff, reduceCtorEq, imp_false, Option.some.injEq,
        exists_eq_left']
      exact ne_comm

/-- The lock that a statement about the row under `k` needs: none when
    transaction `i` sees no such row. -/
def rowLock (s : RowStore κ υ β) (i : Nat) (k : κ) : Option (κ ⊕ υ) :=
  (s.read i k).map fun _ => .inl k

theorem selectForUpdate_eq_none :
    s.selectForUpdate i k = none ↔ ∃ l j, s.rowLock i k = some l ∧ s.Withholds j i l := by
  unfold selectForUpdate rowLock
  cases s.read i k with
  | none => simp
  | some row => simp [acquire_eq_none]

theorem update_eq_none {set : β k → β k} {check : β k → Bool} :
    s.update i k set check = none ↔ ∃ l j, s.rowLock i k = some l ∧ s.Withholds j i l := by
  unfold update rowLock
  cases s.read i k with
  | none => simp
  | some row => simp [acquire_eq_none]

/-- An insertion under a key that nobody uses waits for the index value only. -/
theorem insert_eq_none {index : (k : κ) → β k → Option υ} {u : υ} {row : β k}
    (hfresh : k ∉ s.rows) (hfree : s.locks (.inl k) = none) :
    s.insert index i k u row = none ↔
      (s.view i).entries.any (fun entry => index entry.1 entry.2 == some u) = false ∧
        ∃ j, s.Withholds j i (.inr u) := by
  unfold insert
  rw [if_neg (by simp [hfresh, hfree])]
  cases (s.view i).entries.any fun entry => index entry.1 entry.2 == some u with
  | true => simp
  | false =>
      simp only [Bool.false_eq_true, if_false, true_and, ← acquire_eq_none]
      cases hacquire : s.acquire i (.inr u) with
      | none => simp
      | some s' =>
          have hlock : s'.locks (.inl k) = none := by
            rw [(acquire_spec hacquire).2.2.1, Function.update_of_ne (by simp), hfree]
          simp [acquire, hlock]

/-! ## The locks a transaction owns -/

/-- The locks of transaction `i` are exactly those in `owned`. -/
def Owns (s : RowStore κ υ β) (i : Nat) (owned : Set (κ ⊕ υ)) : Prop :=
  ∀ l, s.locks l = some i ↔ l ∈ owned

theorem acquire_owns {owned : Set (κ ⊕ υ)} {l : κ ⊕ υ} (h : s.acquire i l = some s')
    (hs : s.Owns i owned) : s'.Owns i (owned ∪ {l}) := by
  intro l'
  rw [(acquire_spec h).2.2.1, Set.mem_union, Set.mem_singleton_iff]
  by_cases hl : l' = l
  · subst hl
    simp
  · rw [Function.update_of_ne hl, hs l']
    simp [hl]

/-- A row that is seen is locked from then on. -/
theorem selectForUpdate_owns {owned : Set (κ ⊕ υ)} {row : Option (β k)}
    (h : s.selectForUpdate i k = some (row, s')) (hs : s.Owns i owned) :
    row = none ∨ s'.Owns i (owned ∪ {.inl k}) := by
  rcases selectForUpdate_cases h with ⟨_, hnone, _⟩ | ⟨_, _, _, hacquire⟩
  · exact Or.inl hnone
  · exact Or.inr (acquire_owns hacquire hs)

theorem update_owns {set : β k → β k} {check : β k → Bool} {result : Written (β k)}
    {owned : Set (κ ⊕ υ)} (h : s.update i k set check = some (result, s'))
    (hs : s.Owns i owned) : s'.Owns i owned ∨ s'.Owns i (owned ∪ {.inl k}) := by
  rcases update_cases h with ⟨_, _, rfl⟩ | ⟨row, s₁, _, hacquire, hwrite⟩
  · exact Or.inl hs
  · have hs₁ : s₁.Owns i (owned ∪ {.inl k}) := acquire_owns hacquire hs
    rcases hwrite with ⟨_, _, rfl⟩ | ⟨_, _, rfl⟩
    · exact Or.inr hs₁
    · exact Or.inr hs₁

end RowStore
