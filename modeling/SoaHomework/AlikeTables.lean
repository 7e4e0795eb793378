import SoaHomework.OrderLines
import SoaHomework.TwinPrograms

/-!
# Drafts that differ in order lines only

Two tables are alike if they have the same rows but for the items of the orders, and
these have the same quantity of each product (`Alike`). No statement tells alike
tables apart, except that it answers with other items, and each keeps them alike
(`twins_plain`).
-/

namespace SoaHomework.Marketplace

open StatementProgram

/-! ## Alike rows -/

def promoEntry : Sigma Row → Option (Uuid × PromoCode)
  | ⟨.promo id, p⟩ => some (id, p)
  | _ => none

/-- The promo codes in the order of the table. -/
def promoRows (rows : Rows) : List (Uuid × PromoCode) := rows.entries.filterMap promoEntry

/-- The rows are the same but for the items of the orders, which are `items` and
    `items'`. -/
structure AlikeRows (items items' : Uuid → List OrderItem) (rows rows' : Rows) : Prop where
  same : ∀ k, (∀ id, k ≠ .items id) → rows'.lookup k = rows.lookup k
  promos : promoRows rows' = promoRows rows
  items : ∀ id, itemsOf rows id = items id
  items' : ∀ id, itemsOf rows' id = items' id

variable {items items' : Uuid → List OrderItem} {rows rows' : Rows}

namespace AlikeRows

theorem mem_iff (h : AlikeRows items items' rows rows') {k : Key} (hk : ∀ id, k ≠ .items id) :
    k ∈ rows' ↔ k ∈ rows := by
  rw [← AList.lookup_isSome, ← AList.lookup_isSome, h.same k hk]

theorem exists_entry_iff (h : AlikeRows items items' rows rows') {holds : Sigma Row → Prop}
    (hitems : ∀ id row, ¬ holds ⟨.items id, row⟩) :
    (∃ entry ∈ rows'.entries, holds entry) ↔ ∃ entry ∈ rows.entries, holds entry := by
  have hother : ∀ k (row : Row k), holds ⟨k, row⟩ → ∀ id, k ≠ .items id := by
    rintro k row hholds id rfl
    exact hitems id row hholds
  constructor
  · rintro ⟨⟨k, row⟩, hentry, hholds⟩
    refine ⟨⟨k, row⟩, ?_, hholds⟩
    rw [← AList.mem_lookup_iff, ← h.same k (hother k row hholds)]
    exact AList.mem_lookup_iff.mpr hentry
  · rintro ⟨⟨k, row⟩, hentry, hholds⟩
    refine ⟨⟨k, row⟩, ?_, hholds⟩
    rw [← AList.mem_lookup_iff, h.same k (hother k row hholds)]
    exact AList.mem_lookup_iff.mpr hentry

theorem max?_filterMap (h : AlikeRows items items' rows rows') (f : Sigma Row → Option Int)
    (hf : ∀ id row, f ⟨.items id, row⟩ = none) :
    (rows'.entries.filterMap f).max? = (rows.entries.filterMap f).max? := by
  have hmem : ∀ time, time ∈ rows'.entries.filterMap f ↔ time ∈ rows.entries.filterMap f := by
    intro time
    simp only [List.mem_filterMap]
    exact h.exists_entry_iff fun id row => by simp [hf]
  apply Option.ext
  intro time
  simp only [List.max?_eq_some_iff, hmem]

theorem lastOperation (h : AlikeRows items items' rows rows') (userID : Uuid)
    (operationType : OperationType) :
    Marketplace.lastOperation rows' userID operationType =
      Marketplace.lastOperation rows userID operationType :=
  h.max?_filterMap _ fun _ _ => rfl

theorem isSome_findSome? (h : AlikeRows items items' rows rows') {α : Type}
    (f : Sigma Row → Option α) (hf : ∀ id row, f ⟨.items id, row⟩ = none) :
    (rows'.entries.findSome? f).isSome = (rows.entries.findSome? f).isSome := by
  rw [Bool.eq_iff_iff, List.findSome?_isSome_iff, List.findSome?_isSome_iff]
  exact h.exists_entry_iff fun id row => by simp [hf]

theorem activeOrder (h : AlikeRows items items' rows rows') (userID : Uuid) :
    (Marketplace.activeOrder rows' userID).isSome = (Marketplace.activeOrder rows userID).isSome :=
  h.isSome_findSome? _ fun _ _ => rfl

theorem promoByCode (h : AlikeRows items items' rows rows') (code : String) :
    Marketplace.promoByCode rows' code = Marketplace.promoByCode rows code := by
  have hfind : ∀ rows, Marketplace.promoByCode rows code =
      (promoRows rows).find? fun promo => decide (promo.2.code = code) := by
    intro rows
    rw [Marketplace.promoByCode, promoRows]
    induction rows.entries with
    | nil => rfl
    | cons entry entries ih =>
        obtain ⟨k, row⟩ := entry
        cases k with
        | promo id =>
            have hentry : promoEntry ⟨.promo id, row⟩ = some (id, row) := rfl
            rw [List.findSome?_cons, List.filterMap_cons_some hentry, List.find?_cons]
            by_cases hcode : PromoCode.code row = code
            · simp only [hcode, if_true, decide_true]
            · simp only [hcode, if_false, decide_false]
              exact ih
        | _ => exact ih
  rw [hfind, hfind, h.promos]

theorem usesCode (h : AlikeRows items items' rows rows') (code : String) :
    (rows'.entries.any fun entry => codeIndex entry.1 entry.2 == some code) =
      rows.entries.any fun entry => codeIndex entry.1 entry.2 == some code := by
  rw [Bool.eq_iff_iff, List.any_eq_true, List.any_eq_true]
  exact h.exists_entry_iff fun id row => by simp [codeIndex]

end AlikeRows

/-! ## Writing -/

theorem promoEntry_eq_none {k : Key} (hk : ∀ id, k ≠ .promo id) (row : Row k) :
    promoEntry ⟨k, row⟩ = none := by
  cases k with
  | promo id => exact absurd rfl (hk id)
  | _ => rfl

theorem filterMap_kerase (k : Key) (entries : List (Sigma Row)) :
    (entries.kerase k).filterMap promoEntry =
      (entries.filterMap promoEntry).eraseP fun promo => decide (k = .promo promo.1) := by
  induction entries with
  | nil => rfl
  | cons entry entries ih =>
      obtain ⟨k', row⟩ := entry
      by_cases hk' : ∃ id, k' = .promo id
      · obtain ⟨id, rfl⟩ := hk'
        have hentry : promoEntry ⟨.promo id, row⟩ = some (id, row) := rfl
        rw [List.filterMap_cons_some hentry]
        by_cases hk : k = .promo id
        · rw [List.kerase_cons_eq hk, List.eraseP_cons_of_pos (by simpa using hk)]
        · rw [List.kerase_cons_ne hk, List.filterMap_cons_some hentry, ih,
            List.eraseP_cons_of_neg (by simpa using hk)]
      · have hentry := promoEntry_eq_none (fun id heq => hk' ⟨id, heq⟩) row
        rw [List.filterMap_cons_none hentry]
        by_cases hk : k = k'
        · subst hk
          rw [List.kerase_cons_eq (s := ⟨k, row⟩) rfl, List.eraseP_of_forall_not]
          intro promo _ hpromo
          exact hk' ⟨promo.1, of_decide_eq_true hpromo⟩
        · rw [List.kerase_cons_ne hk, List.filterMap_cons_none hentry, ih]

theorem promoRows_insert (h : promoRows rows' = promoRows rows) (k : Key) (row : Row k) :
    promoRows (rows'.insert k row) = promoRows (rows.insert k row) := by
  rw [promoRows, promoRows] at h ⊢
  rw [AList.entries_insert, AList.entries_insert, List.filterMap_cons, List.filterMap_cons,
    filterMap_kerase, filterMap_kerase, h]

theorem promoRows_insert_of_ne {k : Key} (hk : ∀ id, k ≠ .promo id) (row : Row k) :
    promoRows (rows.insert k row) = promoRows rows := by
  rw [promoRows, AList.entries_insert, List.filterMap_cons_none (promoEntry_eq_none hk row),
    filterMap_kerase, List.eraseP_of_forall_not]
  · rfl
  · intro promo _ hpromo
    exact hk promo.1 (of_decide_eq_true hpromo)

theorem itemsOf_insert {k : Key} (hk : ∀ id, k ≠ .items id) (row : Row k) (id : Uuid) :
    itemsOf (rows.insert k row) id = itemsOf rows id := by
  rw [itemsOf, itemsOf, AList.lookup_insert_ne (Ne.symm (hk id))]

theorem AlikeRows.insert (h : AlikeRows items items' rows rows') {k : Key}
    (hk : ∀ id, k ≠ .items id) (row : Row k) :
    AlikeRows items items' (rows.insert k row) (rows'.insert k row) := by
  constructor
  · intro k' hk'
    by_cases heq : k' = k
    · subst heq
      rw [AList.lookup_insert, AList.lookup_insert]
    · rw [AList.lookup_insert_ne heq, AList.lookup_insert_ne heq, h.same k' hk']
  · exact promoRows_insert h.promos k row
  · intro id
    rw [itemsOf_insert hk, h.items]
  · intro id
    rw [itemsOf_insert hk, h.items']

theorem AlikeRows.insertItems (h : AlikeRows items items' rows rows') (id : Uuid)
    (new new' : List OrderItem) :
    AlikeRows (Function.update items id new) (Function.update items' id new')
      (rows.insert (.items id) new) (rows'.insert (.items id) new') := by
  have hitems : ∀ (rows : Rows) (new : List OrderItem) (held : Uuid → List OrderItem),
      (∀ id', itemsOf rows id' = held id') → ∀ id',
        itemsOf (rows.insert (.items id) new) id' = Function.update held id new id' := by
    intro rows new held hheld id'
    by_cases heq : id' = id
    · subst heq
      rw [itemsOf, AList.lookup_insert, Function.update_self]
      rfl
    · rw [itemsOf, AList.lookup_insert_ne (by simpa using heq), Function.update_of_ne heq]
      exact hheld id'
  constructor
  · intro k hk
    rw [AList.lookup_insert_ne (hk id), AList.lookup_insert_ne (hk id), h.same k hk]
  · have hne : ∀ id', Key.items id ≠ .promo id' := by simp
    rw [promoRows_insert_of_ne hne, promoRows_insert_of_ne hne, h.promos]
  · exact hitems rows new items h.items
  · exact hitems rows' new' items' h.items'

theorem promoRows_putStocks (t : Draft) (changes : List (Uuid × Int)) :
    promoRows (t.putStocks changes).seen = promoRows t.seen := by
  rw [Draft.putStocks]
  induction changes generalizing t with
  | nil => rfl
  | cons change changes ih =>
      rw [List.foldl_cons, ih, Draft.putStock]
      split
      · have hne : ∀ id, Key.product change.1 ≠ .promo id := by simp
        rw [Draft.seen_put, promoRows_insert_of_ne hne]
      · rfl

/-- The stocks may be written in any order. -/
theorem AlikeRows.putStocks {t t' : Draft} (h : AlikeRows items items' t.seen t'.seen)
    {changes changes' : List (Uuid × Int)} (hperm : changes.Perm changes')
    (hnodup : (changes.map Prod.fst).Nodup)
    (hfound : ∀ change ∈ changes, ∃ product : Product,
      t.seen.lookup (.product change.1) = some product) :
    AlikeRows items items' (t.putStocks changes).seen (t'.putStocks changes').seen := by
  have hnodup' : (changes'.map Prod.fst).Nodup := (hperm.map Prod.fst).nodup_iff.mp hnodup
  have hitem : ∀ (t : Draft) (changes : List (Uuid × Int)) (id : Uuid),
      itemsOf (t.putStocks changes).seen id = itemsOf t.seen id := by
    intro t changes id
    have hne : ∀ change ∈ changes, Key.items id ≠ .product change.1 := by simp
    rw [itemsOf, t.lookup_putStocks_other hne, itemsOf]
  constructor
  · intro k hk
    by_cases hmem : ∃ change ∈ changes, k = .product change.1
    · obtain ⟨change, hchange, rfl⟩ := hmem
      obtain ⟨product, hrow⟩ := hfound change hchange
      have hrow' : t'.seen.lookup (.product change.1) = some product := (h.same _ hk).trans hrow
      rw [t.lookup_putStocks hnodup hchange hrow,
        t'.lookup_putStocks hnodup' (hperm.mem_iff.mp hchange) hrow']
    · rw [t.lookup_putStocks_other fun change hchange heq => hmem ⟨change, hchange, heq⟩,
        t'.lookup_putStocks_other fun change hchange heq =>
          hmem ⟨change, hperm.mem_iff.mpr hchange, heq⟩, h.same k hk]
  · rw [promoRows_putStocks, promoRows_putStocks, h.promos]
  · intro id
    rw [hitem, h.items]
  · intro id
    rw [hitem, h.items']

/-! ## Alike tables -/

/-- The tables are the same but for the items of the orders, committed and seen. -/
structure Alike (committed committed' items items' : Uuid → List OrderItem) (t t' : Draft) :
    Prop where
  rows : AlikeRows committed committed' t.rows t'.rows
  seen : AlikeRows items items' t.seen t'.seen

/-- The same draw but for the keys of the items. -/
structure SameDraw (draw draw' : Draw) : Prop where
  clock : draw'.clock = draw.clock
  id : draw'.id = draw.id
  operationID : draw'.operationID = draw.operationID

/-- The answers are the same and the tables alike, if both statements are executed. -/
def Agree (committed committed' items items' : Uuid → List OrderItem) {α : Type}
    (x y : Option (α × Draft)) : Prop :=
  ∀ answer t, x = some (answer, t) → ∀ answer' t', y = some (answer', t') →
    answer' = answer ∧ Alike committed committed' items items' t t'

section Statements

variable {committed committed' : Uuid → List OrderItem} {t t' : Draft} {draw draw' : Draw}

theorem Agree.both {α : Type} {answer answer' : α} (heq : answer' = answer)
    (h : Alike committed committed' items items' t t') :
    Agree committed committed' items items' (some (answer, t)) (some (answer', t')) := by
  rintro _ _ ⟨⟩ _ _ ⟨⟩
  exact ⟨heq, h⟩

theorem Alike.put (h : Alike committed committed' items items' t t') {k : Key}
    (hk : ∀ id, k ≠ .items id) (row : Row k) :
    Alike committed committed' items items' (t.put k row) (t'.put k row) := by
  constructor
  · exact h.rows
  · rw [Draft.seen_put, Draft.seen_put]
    exact h.seen.insert hk row

theorem Alike.putItems (h : Alike committed committed' items items' t t') (id : Uuid)
    (new new' : List OrderItem) :
    Alike committed committed' (Function.update items id new) (Function.update items' id new')
      (t.put (.items id) new) (t'.put (.items id) new') := by
  constructor
  · exact h.rows
  · rw [Draft.seen_put, Draft.seen_put]
    exact h.seen.insertItems id new new'

theorem Alike.update (h : Alike committed committed' items items' t t') {k : Key}
    (hk : ∀ id, k ≠ .items id) (set : Row k → Row k) (check : Row k → Bool) :
    Agree committed committed' items items' (some (t.update k set check))
      (some (t'.update k set check)) := by
  rw [Draft.update, Draft.update, h.seen.same k hk]
  cases t.seen.lookup k with
  | none => exact Agree.both rfl h
  | some row =>
      simp only
      split
      · exact Agree.both rfl (h.put hk _)
      · exact Agree.both rfl h

theorem Alike.insert (h : Alike committed committed' items items' t t') {k : Key}
    (hk : ∀ id, k ≠ .items id) (row : Row k) {α : Type} (value : α) :
    Agree committed committed' items items'
      ((t.insert k row).map fun t => ((.ok value : Except DbError α), t))
      ((t'.insert k row).map fun t => (.ok value, t)) := by
  rw [Draft.insert, Draft.insert]
  by_cases hmem : k ∈ t.seen
  · rw [if_pos hmem]
    intro _ _ h
    cases h
  · rw [if_neg hmem, if_neg (mt (h.seen.mem_iff hk).mp hmem)]
    exact Agree.both rfl (h.put hk row)

/-- The statement is not about the items, and what it answers does not depend on the
    order of the tables. -/
def Statement.plain : Statement → Bool
  | .selectActiveOrder _ => false
  | .selectProductsForUpdate _ => false
  | .selectItems _ => false
  | .insertItems _ _ => false
  | .deleteItems _ _ => false
  | .commit => false
  | _ => true

/-- A plain statement does not tell alike tables apart. -/
theorem Alike.effect (h : Alike committed committed' items items' t t')
    (hdraw : SameDraw draw draw') {statement : Statement} (hplain : statement.plain = true) :
    Agree committed committed' items items' (onDraft draw statement t)
      (onDraft draw' statement t') := by
  have hlookup : ∀ {k : Key}, (∀ id, k ≠ .items id) →
      Agree committed committed' items items'
        (some ((.ok (t.seen.lookup k) : Except DbError _), t))
        (some (.ok (t'.seen.lookup k), t')) :=
    fun hk => Agree.both (congrArg Except.ok (h.seen.same _ hk)) h
  obtain ⟨_, _, _, itemIDs⟩ := draw
  obtain ⟨clock, id, operationID, itemIDs'⟩ := draw'
  obtain ⟨rfl, rfl, rfl⟩ := hdraw
  cases statement with
  | now => exact Agree.both rfl h
  | selectUser id => exact hlookup (by simp)
  | selectProduct id => exact hlookup (by simp)
  | selectPromo id => exact hlookup (by simp)
  | selectOrder id => exact hlookup (by simp)
  | refreshOrder id => exact hlookup (by simp)
  | refreshProduct id => exact hlookup (by simp)
  | refreshPromo id => exact hlookup (by simp)
  | selectLastOperation userID operationType =>
      exact Agree.both (congrArg Except.ok (h.seen.lastOperation userID operationType)) h
  | selectPromoByCode code =>
      exact Agree.both (congrArg Except.ok (h.seen.promoByCode code)) h
  | updateStock id stock => exact h.update (k := .product id) (by simp) _ _
  | updateUses id uses => exact h.update (k := .promo id) (by simp) _ _
  | updateOrder id change => exact h.update (k := .order id) (by simp) _ _
  | insertOrder order =>
      simp only [onDraft, Draft.effect]
      split
      · exact h.insert (k := .order id) (by simp) _ _
      · exact Agree.both rfl h
  | insertProduct product =>
      simp only [onDraft, Draft.effect]
      split
      · exact h.insert (k := .product id) (by simp) _ _
      · exact Agree.both rfl h
  | insertOperation userID operationType =>
      exact h.insert (k := .operation operationID) (by simp) _ _
  | updateProduct id change =>
      simp only [onDraft, Draft.effect]
      split
      · split
        · exact Agree.both rfl h
        · exact h.update (k := .product id) (by simp) _ _
      · exact Agree.both rfl h
  | insertPromo promo =>
      have hmem : .promo id ∈ t'.seen ↔ .promo id ∈ t.seen := h.seen.mem_iff (by simp)
      simp only [onDraft, Draft.effect, hmem, h.seen.usesCode]
      split
      · split
        · intro _ _ h
          cases h
        · split
          · exact Agree.both rfl h
          · exact Agree.both rfl (h.put (k := .promo id) (by simp) _)
      · exact Agree.both rfl h
  | selectActiveOrder userID => cases hplain
  | selectProductsForUpdate ids => cases hplain
  | selectItems orderID => cases hplain
  | insertItems orderID lines => cases hplain
  | deleteItems orderID ids => cases hplain
  | commit => cases hplain

end Statements

end SoaHomework.Marketplace
