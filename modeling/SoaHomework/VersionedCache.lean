import Mathlib.Algebra.Order.Group.Int
import Mathlib.Logic.Function.Basic

/-!
# A cache with version guards

Beside each payload the cache keeps a version. A reader that has found no
payload stores what it has read elsewhere with its version, and a writer that
has changed an item deletes the payloads that list it and then sets the version
of their keys. Neither lets a smaller version replace a larger one. That keeps
a reader from storing a list that is older than a change once the version is
set, but not between the deletion and the setting (`Coherent.setIfNewer`).
-/

namespace VersionedCache

structure Cache (κ α : Type) where
  payload : κ → Option α
  version : κ → Option Int

/-- A change of an item, the keys whose payload the writer has deleted since,
    and those whose version it has set. -/
structure Change (κ ι : Type) where
  item : ι
  version : Int
  deleted : List κ
  announced : List κ

variable {κ α ι : Type}

namespace Cache

def empty : Cache κ α := ⟨fun _ => none, fun _ => none⟩

/-- The guard: no larger version is stored. -/
def admits (c : Cache κ α) (k : κ) (v : Int) : Bool :=
  (c.version k).all fun current => decide (current ≤ v)

theorem le_of_admits {c : Cache κ α} {k : κ} {v n : Int} (h : c.admits k v = true)
    (hn : c.version k = some n) : n ≤ v := by
  simpa [admits, hn] using h

theorem lt_of_not_admits {c : Cache κ α} {k : κ} {v : Int} (h : c.admits k v = false) :
    ∃ n, c.version k = some n ∧ v < n := by
  cases hn : c.version k with
  | none => simp [admits, hn] at h
  | some n => exact ⟨n, rfl, by simpa [admits, hn] using h⟩

variable [DecidableEq κ]

def setIfNewer (c : Cache κ α) (k : κ) (v : Int) (a : α) : Cache κ α :=
  if c.admits k v then
    ⟨Function.update c.payload k (some a), Function.update c.version k (some v)⟩
  else c

def setVersionIfNewer (c : Cache κ α) (k : κ) (v : Int) : Cache κ α :=
  if c.admits k v then { c with version := Function.update c.version k (some v) } else c

def delete (c : Cache κ α) (k : κ) : Cache κ α :=
  { c with payload := Function.update c.payload k none }

def deleteVersion (c : Cache κ α) (k : κ) : Cache κ α :=
  { c with version := Function.update c.version k none }

/-! ## What the commands do to a key -/

/-- What is stored under a key after a fill. -/
theorem payload_setIfNewer {c : Cache κ α} {k k' : κ} {v : Int} {a b : α}
    (h : (c.setIfNewer k v a).payload k' = some b) :
    c.payload k' = some b ∨ (c.admits k v = true ∧ k' = k ∧ b = a) := by
  unfold setIfNewer at h
  split at h
  · rename_i hadmits
    by_cases hk : k' = k
    · subst hk
      simp only [Function.update_self, Option.some.injEq] at h
      exact Or.inr ⟨hadmits, rfl, h.symm⟩
    · simp only [Function.update_of_ne hk] at h
      exact Or.inl h
  · exact Or.inl h

theorem payload_delete {c : Cache κ α} {k k' : κ} {b : α}
    (h : (c.delete k).payload k' = some b) : k' ≠ k ∧ c.payload k' = some b := by
  by_cases hk : k' = k
  · subst hk
    simp only [delete, Function.update_self] at h
    cases h
  · simp only [delete, Function.update_of_ne hk] at h
    exact ⟨hk, h⟩

@[simp] theorem payload_setVersionIfNewer (c : Cache κ α) (k : κ) (v : Int) :
    (c.setVersionIfNewer k v).payload = c.payload := by
  unfold setVersionIfNewer
  split
  · rfl
  · rfl

/-- A key's version is at least `w`. -/
def Reaches (c : Cache κ α) (k : κ) (w : Int) : Prop := ∃ n, c.version k = some n ∧ w ≤ n

theorem update_reaches {version : κ → Option Int} {k k' : κ} {v w : Int} {c : Cache κ α}
    (hversion : c.version = Function.update version k (some v))
    (hold : ∀ n, version k = some n → n ≤ v) (h : ∃ n, version k' = some n ∧ w ≤ n) :
    c.Reaches k' w := by
  obtain ⟨n, hn, hle⟩ := h
  by_cases hk : k' = k
  · subst hk
    exact ⟨v, by rw [hversion, Function.update_self], le_trans hle (hold n hn)⟩
  · exact ⟨n, by rw [hversion, Function.update_of_ne hk, hn], hle⟩

/-- Versions never decrease. -/
theorem Reaches.setIfNewer {c : Cache κ α} {k' : κ} {w : Int} (h : c.Reaches k' w) (k : κ)
    (v : Int) (a : α) : (c.setIfNewer k v a).Reaches k' w := by
  unfold Cache.setIfNewer
  split
  · rename_i hadmits
    exact update_reaches rfl (fun n hn => le_of_admits hadmits hn) h
  · exact h

theorem Reaches.setVersionIfNewer {c : Cache κ α} {k' : κ} {w : Int} (h : c.Reaches k' w) (k : κ)
    (v : Int) : (c.setVersionIfNewer k v).Reaches k' w := by
  unfold Cache.setVersionIfNewer
  split
  · rename_i hadmits
    exact update_reaches rfl (fun n hn => le_of_admits hadmits hn) h
  · exact h

/-- Whether the version is stored or not, the key has it afterwards. -/
theorem reaches_setVersionIfNewer (c : Cache κ α) (k : κ) {v w : Int} (h : w ≤ v) :
    (c.setVersionIfNewer k v).Reaches k w := by
  unfold Cache.setVersionIfNewer
  split
  · exact ⟨v, Function.update_self _ _ _, h⟩
  · rename_i hadmits
    obtain ⟨n, hn, hlt⟩ := lt_of_not_admits (Bool.eq_false_iff.mpr hadmits)
    exact ⟨n, hn, by omega⟩

end Cache

/-! ## Coherence -/

/-- Where a writer has deleted the payload, the item is listed at the version
    of its change or a later one; where it has set the version, the key has
    kept it. `listed a x n` says that the payload `a` lists `x` at version `n`. -/
structure Coherent (listed : α → ι → Int → Prop) (c : Cache κ α)
    (changes : Nat → Option (Change κ ι)) : Prop where
  fresh : ∀ j change, changes j = some change → ∀ k ∈ change.deleted, ∀ a,
    c.payload k = some a → ∀ n, listed a change.item n → change.version ≤ n
  announced : ∀ j change, changes j = some change → ∀ k ∈ change.announced,
    c.Reaches k change.version

/-- A fill that the guard admits comes in time: if it lists an item older than
    a change whose writer has deleted the payload already, the writer has set
    the version as well, and the fill has a smaller one. -/
def InTime (listed : α → ι → Int → Prop) (c : Cache κ α) (changes : Nat → Option (Change κ ι))
    (k : κ) (v : Int) (a : α) : Prop :=
  c.admits k v = true → ∀ j change, changes j = some change → k ∈ change.deleted →
    ∀ n, listed a change.item n → n < change.version →
      k ∈ change.announced ∧ v < change.version

variable {listed : α → ι → Int → Prop} {c : Cache κ α} {changes : Nat → Option (Change κ ι)}

/-- Once a writer has set the version of its change, the guard admits no smaller one. -/
theorem Coherent.le_of_admits (h : Coherent listed c changes) {k : κ} {v : Int} {j : Nat}
    {change : Change κ ι} (hj : changes j = some change) (hannounced : k ∈ change.announced)
    (hadmits : c.admits k v = true) : change.version ≤ v := by
  obtain ⟨n, hn, hle⟩ := h.announced j change hj k hannounced
  exact le_trans hle (Cache.le_of_admits hadmits hn)

/-- An admitted fill comes in time if it shows every change whose writer has deleted the
    payload already. -/
theorem Coherent.inTime_iff (h : Coherent listed c changes) (k : κ) (v : Int) (a : α) :
    InTime listed c changes k v a ↔
      (c.admits k v = true → ∀ j change, changes j = some change → k ∈ change.deleted →
        ∀ n, listed a change.item n → change.version ≤ n) := by
  constructor
  · intro htime hadmits j change hj hdeleted n hn
    by_contra hlt
    obtain ⟨hannounced, hv⟩ := htime hadmits j change hj hdeleted n hn (Int.not_le.mp hlt)
    exact absurd (h.le_of_admits hj hannounced hadmits) (Int.not_le.mpr hv)
  · intro hshows hadmits j change hj hdeleted n hn hlt
    exact absurd (hshows hadmits j change hj hdeleted n hn) (Int.not_le.mpr hlt)

/-- What lists items at the version of its fill only is too late for no writer but one that
    has deleted the payload and not set the version yet. -/
theorem Coherent.inTime_iff_between (h : Coherent listed c changes) {k : κ} {v : Int} {a : α}
    (hown : ∀ x n, listed a x n → n = v) :
    InTime listed c changes k v a ↔
      (c.admits k v = true → ∀ j change, changes j = some change → k ∈ change.deleted →
        k ∉ change.announced → ∀ n, listed a change.item n → change.version ≤ n) := by
  rw [h.inTime_iff]
  constructor
  · exact fun hshows hadmits j change hj hdeleted _ => hshows hadmits j change hj hdeleted
  · intro hbetween hadmits j change hj hdeleted n hn
    by_cases hannounced : k ∈ change.announced
    · rw [hown _ n hn]
      exact h.le_of_admits hj hannounced hadmits
    · exact hbetween hadmits j change hj hdeleted hannounced n hn

theorem coherent_empty :
    Coherent listed Cache.empty (fun _ => none : Nat → Option (Change κ ι)) where
  fresh j change h := by cases h
  announced j change h := by cases h

/-- One writer's record is replaced by one that is coherent too. -/
theorem Coherent.update (h : Coherent listed c changes) (i : Nat) {change : Change κ ι}
    (hfresh : ∀ k ∈ change.deleted, ∀ a, c.payload k = some a →
      ∀ n, listed a change.item n → change.version ≤ n)
    (hannounced : ∀ k ∈ change.announced, c.Reaches k change.version) :
    Coherent listed c (Function.update changes i (some change)) where
  fresh j change' hj := by
    by_cases hij : j = i
    · subst hij
      rw [Function.update_self, Option.some.injEq] at hj
      exact hj ▸ hfresh
    · rw [Function.update_of_ne hij] at hj
      exact h.fresh j change' hj
  announced j change' hj := by
    by_cases hij : j = i
    · subst hij
      rw [Function.update_self, Option.some.injEq] at hj
      exact hj ▸ hannounced
    · rw [Function.update_of_ne hij] at hj
      exact h.announced j change' hj

/-- A writer has made a change and told the cache nothing yet. -/
theorem Coherent.changed (h : Coherent listed c changes) (i : Nat) (x : ι) (v : Int) :
    Coherent listed c (Function.update changes i (some ⟨x, v, [], []⟩)) :=
  h.update i (fun _ hk => by cases hk) fun _ hk => by cases hk

variable [DecidableEq κ]

/-- The version guard rejects what a fill in time would store too late. -/
theorem Coherent.setIfNewer (h : Coherent listed c changes) {k : κ} {v : Int} {a : α}
    (hfill : InTime listed c changes k v a) : Coherent listed (c.setIfNewer k v a) changes where
  fresh j change hj k' hk' b hb n hn := by
    rcases Cache.payload_setIfNewer hb with hold | ⟨hadmits, rfl, rfl⟩
    · exact h.fresh j change hj k' hk' b hold n hn
    · exact (h.inTime_iff k' v b).mp hfill hadmits j change hj hk' n hn
  announced j change hj k' hk' := (h.announced j change hj k' hk').setIfNewer k v a

theorem Coherent.setVersionIfNewer (h : Coherent listed c changes) (k : κ) (v : Int) :
    Coherent listed (c.setVersionIfNewer k v) changes where
  fresh j change hj k' hk' a ha := by
    rw [Cache.payload_setVersionIfNewer] at ha
    exact h.fresh j change hj k' hk' a ha
  announced j change hj k' hk' := (h.announced j change hj k' hk').setVersionIfNewer k v

theorem Coherent.delete (h : Coherent listed c changes) (k : κ) :
    Coherent listed (c.delete k) changes where
  fresh j change hj k' hk' a ha :=
    h.fresh j change hj k' hk' a (Cache.payload_delete ha).2
  announced := h.announced

/-- A writer deletes a payload that may list what it has changed. -/
theorem Coherent.deleted (h : Coherent listed c changes) {i : Nat} {change : Change κ ι}
    (hi : changes i = some change) (k : κ) :
    Coherent listed (c.delete k)
      (Function.update changes i (some { change with deleted := k :: change.deleted })) := by
  refine (h.delete k).update i (fun k' hk' a ha n hn => ?_) (h.announced i change hi)
  obtain ⟨hne, hold⟩ := Cache.payload_delete ha
  rcases List.mem_cons.mp hk' with heq | hmem
  · exact absurd heq hne
  · exact h.fresh i change hi k' hmem a hold n hn

/-- A writer sets the version of a key to that of its change or a later one. -/
theorem Coherent.versionSet (h : Coherent listed c changes) {i : Nat} {change : Change κ ι}
    (hi : changes i = some change) (k : κ) {v : Int} (hv : change.version ≤ v) :
    Coherent listed (c.setVersionIfNewer k v)
      (Function.update changes i (some { change with announced := k :: change.announced })) := by
  have hset := h.setVersionIfNewer k v
  refine hset.update i (hset.fresh i change hi) fun k' hk' => ?_
  rcases List.mem_cons.mp hk' with rfl | hmem
  · exact Cache.reaches_setVersionIfNewer c k' hv
  · exact hset.announced i change hi k' hmem

end VersionedCache
