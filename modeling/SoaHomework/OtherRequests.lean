import SoaHomework.Cancellations
import SoaHomework.HandlerStatements

/-!
# What a request leaves of another order

A request that is not about an order keeps its row, its items, the users and the terms
of the promo codes (`Kept`). A request that fails leaves nothing behind.
-/

namespace SoaHomework.Marketplace

open StatementProgram

/-- The rows of the users, of the order and of its items are the same, and the promo codes
    are but for their counters. -/
structure Kept (id : Uuid) (rows rows' : Rows) : Prop where
  users : ∀ u, rows'.lookup (.user u) = rows.lookup (.user u)
  order : rows'.lookup (.order id) = rows.lookup (.order id)
  items : rows'.lookup (.items id) = rows.lookup (.items id)
  promos : ∀ (q : Uuid) (promo : PromoCode), rows.lookup (.promo q) = some promo →
    ∃ uses, rows'.lookup (.promo q) = some (promo.withUses uses) ∧
      (promo.fits = true → (promo.withUses uses).fits = true)

theorem Kept.refl (id : Uuid) (rows : Rows) : Kept id rows rows :=
  ⟨fun _ => rfl, rfl, rfl, fun _ promo hrow => ⟨promo.currentUses, hrow, fun hfits => hfits⟩⟩

/-- A row that a request may write without touching the order `id`. -/
def Harmless (id : Uuid) (seen : Rows) : (k : Key) → Row k → Prop
  | .user _, _ => False
  | .order o, _ => o ≠ id
  | .items o, _ => o ≠ id
  | .promo q, promo' => ∀ promo : PromoCode, seen.lookup (.promo q) = some promo →
      ∃ uses, promo' = promo.withUses uses ∧ (promo.withUses uses).fits = true
  | .product _, _ => True
  | .operation _, _ => True

section Kept

variable {id : Uuid} {rows seen : Rows}

theorem Kept.insert (h : Kept id rows seen) {k : Key} {row : Row k}
    (hrow : Harmless id seen k row) : Kept id rows (seen.insert k row) := by
  constructor
  · intro u
    have hne : Key.user u ≠ k := by
      rintro rfl
      exact hrow
    rw [AList.lookup_insert_ne hne, h.users u]
  · have hne : Key.order id ≠ k := by
      rintro rfl
      exact hrow rfl
    rw [AList.lookup_insert_ne hne, h.order]
  · have hne : Key.items id ≠ k := by
      rintro rfl
      exact hrow rfl
    rw [AList.lookup_insert_ne hne, h.items]
  · intro q promo hpromo
    obtain ⟨uses, hseen, hfits⟩ := h.promos q promo hpromo
    by_cases heq : Key.promo q = k
    · subst heq
      obtain ⟨uses', hrow', hfits'⟩ := hrow _ hseen
      refine ⟨uses', ?_, fun _ => hfits'⟩
      rw [AList.lookup_insert, hrow']
      rfl
    · exact ⟨uses, by rw [AList.lookup_insert_ne heq, hseen], hfits⟩

end Kept

/-! ## Statements that keep an order -/

/-- The statement does not write the order `id` or its items. -/
def Statement.Avoids (id : Uuid) : Statement → Prop
  | .updateOrder o _ => o ≠ id
  | .insertItems o _ => o ≠ id
  | .deleteItems o _ => o ≠ id
  | _ => True

/-- A new order has another key than `id`. -/
def OtherKey (id : Uuid) : (statement : Statement) → Answer statement → Prop
  | .insertOrder _, .ok o => o ≠ id
  | _, _ => True

/-- What the request has committed and what it sees keep the order. -/
structure Keeping (id : Uuid) (rows : Rows) (t : Draft) : Prop where
  committed : Kept id rows t.rows
  seen : Kept id rows t.seen

section Statements

variable {id : Uuid} {rows : Rows} {t t' : Draft} {draw : Draw} {α : Type}

theorem Keeping.put (h : Keeping id rows t) {k : Key} {row : Row k}
    (hrow : Harmless id t.seen k row) : Keeping id rows (t.put k row) := by
  constructor
  · exact h.committed
  · rw [Draft.seen_put]
    exact h.seen.insert hrow

theorem Keeping.update (h : Keeping id rows t) {k : Key} {set : Row k → Row k}
    {check : Row k → Bool}
    (hset : ∀ row, t.seen.lookup k = some row → check (set row) = true →
      Harmless id t.seen k (set row)) : Keeping id rows (t.update k set check).2 := by
  rw [Draft.update]
  cases hrow : t.seen.lookup k with
  | none => exact h
  | some row =>
      by_cases hcheck : check (set row) = true
      · simp only [if_pos hcheck]
        exact h.put (hset row hrow hcheck)
      · simp only [if_neg hcheck]
        exact h

theorem Keeping.insert (h : Keeping id rows t) {k : Key} {row : Row k}
    (hinsert : t.insert k row = some t') (hrow : k ∉ t.seen → Harmless id t.seen k row) :
    Keeping id rows t' := by
  rw [Draft.insert] at hinsert
  split at hinsert
  · cases hinsert
  · rename_i hnew
    obtain rfl := Option.some.inj hinsert
    exact h.put (hrow hnew)

/-- A new order has a key that is not in the table. -/
theorem ne_of_new {o : Uuid} (h : Keeping id rows t) (horder : .order id ∈ rows)
    (hnew : .order o ∉ t.seen) : o ≠ id := by
  rintro rfl
  exact hnew ((mem_congr h.seen.order).mpr horder)

theorem harmless_promo {q : Uuid} {promo : PromoCode} (hnew : .promo q ∉ t.seen) :
    Harmless id t.seen (.promo q) promo := by
  intro promo' hrow
  exact absurd (AList.lookup_isSome.mp (Option.isSome_of_eq_some hrow)) hnew

/-- What one statement keeps. -/
theorem Keeping.effect (h : Keeping id rows t) (horder : .order id ∈ rows)
    {statement : Statement} (havoids : statement.Avoids id) {answer : Answer statement}
    (heffect : onDraft draw statement t = some (answer, t')) :
    OtherKey id statement answer ∧ Keeping id rows t' := by
  have hupdate : ∀ {k : Key} {set : Row k → Row k} {check : Row k → Bool}
      {answer : Except DbError Unit}, (∀ row, t.seen.lookup k = some row →
        check (set row) = true → Harmless id t.seen k (set row)) →
      t.update k set check = (answer, t') → Keeping id rows t' := by
    intro k set check answer hset heq
    have hkeep := h.update hset
    rwa [heq] at hkeep
  cases statement with
  | updateStock p stock =>
      exact ⟨trivial, hupdate (k := .product p) (fun _ _ _ => trivial) (Option.some.inj heffect)⟩
  | updateProduct p change =>
      simp only [onDraft, Draft.effect] at heffect
      refine ⟨trivial, ?_⟩
      split at heffect
      · split at heffect
        · obtain ⟨_, rfl⟩ := Prod.mk.inj (Option.some.inj heffect)
          exact h
        · exact hupdate (k := .product p) (fun _ _ _ => trivial) (Option.some.inj heffect)
      · obtain ⟨_, rfl⟩ := Prod.mk.inj (Option.some.inj heffect)
        exact h
  | updateUses q uses =>
      refine ⟨trivial, hupdate (k := .promo q) ?_ (Option.some.inj heffect)⟩
      intro promo hpromo hfits promo' hpromo'
      rw [hpromo, Option.some.injEq] at hpromo'
      subst hpromo'
      exact ⟨uses, rfl, hfits⟩
  | updateOrder o change =>
      exact ⟨trivial, hupdate (k := .order o) (fun _ _ _ => havoids) (Option.some.inj heffect)⟩
  | insertOrder order =>
      simp only [onDraft, Draft.effect] at heffect
      split at heffect
      · obtain ⟨t₁, hinsert, heq⟩ := Option.map_eq_some_iff.mp heffect
        obtain ⟨rfl, rfl⟩ := Prod.mk.inj heq
        have hnew : .order draw.id ∉ t.seen := by
          intro hmem
          rw [Draft.insert, if_pos hmem] at hinsert
          cases hinsert
        exact ⟨ne_of_new h horder hnew, h.insert hinsert fun _ => ne_of_new h horder hnew⟩
      · obtain ⟨rfl, rfl⟩ := Prod.mk.inj (Option.some.inj heffect)
        exact ⟨trivial, h⟩
  | insertItems o lines =>
      simp only [onDraft, Draft.effect] at heffect
      split at heffect
      · obtain ⟨_, rfl⟩ := Prod.mk.inj (Option.some.inj heffect)
        exact ⟨trivial, h.put havoids⟩
      · cases heffect
  | deleteItems o ids =>
      obtain ⟨_, rfl⟩ := Prod.mk.inj (Option.some.inj heffect)
      exact ⟨trivial, h.update fun _ _ _ => havoids⟩
  | insertOperation userID operationType =>
      obtain ⟨t₁, hinsert, heq⟩ := Option.map_eq_some_iff.mp heffect
      obtain ⟨_, rfl⟩ := Prod.mk.inj heq
      exact ⟨trivial, h.insert hinsert fun _ => trivial⟩
  | insertProduct product =>
      simp only [onDraft, Draft.effect] at heffect
      refine ⟨trivial, ?_⟩
      split at heffect
      · obtain ⟨t₁, hinsert, heq⟩ := Option.map_eq_some_iff.mp heffect
        obtain ⟨_, rfl⟩ := Prod.mk.inj heq
        exact h.insert hinsert fun _ => trivial
      · obtain ⟨_, rfl⟩ := Prod.mk.inj (Option.some.inj heffect)
        exact h
  | insertPromo promo =>
      simp only [onDraft, Draft.effect] at heffect
      refine ⟨trivial, ?_⟩
      split at heffect
      · split at heffect
        · cases heffect
        · rename_i hnew
          split at heffect
          · obtain ⟨_, rfl⟩ := Prod.mk.inj (Option.some.inj heffect)
            exact h
          · obtain ⟨_, rfl⟩ := Prod.mk.inj (Option.some.inj heffect)
            exact h.put (harmless_promo hnew)
      · obtain ⟨_, rfl⟩ := Prod.mk.inj (Option.some.inj heffect)
        exact h
  | commit =>
      obtain ⟨_, rfl⟩ := Prod.mk.inj (Option.some.inj heffect)
      refine ⟨trivial, h.seen, ?_⟩
      rw [Draft.seen_of_written]
      exact h.seen
  | _ =>
      obtain ⟨_, rfl⟩ := Prod.mk.inj (Option.some.inj heffect)
      exact ⟨trivial, h⟩

end Statements

/-! ## Handlers that keep an order -/

/-- The request updates or cancels the order. -/
def Request.Concerns (id : Uuid) : Request → Prop
  | .updateOrder _ o _ => o = id
  | .cancelOrder _ o => o = id
  | _ => False

/-- A statement of a request that updates or cancels the order `o`, before its commit. -/
def Statement.Changes (o : Uuid) : Statement → Prop
  | .updateOrder o' _ => o' = o
  | .insertItems o' _ => o' = o
  | .deleteItems o' _ => o' = o
  | .insertOperation _ operationType => operationType = .updateOrder
  | .commit => False
  | _ => True

/-- How a request that updates or cancels an order ends. -/
def commitOrder (o : Uuid) : Handler Response := do
  query .commit
  orderResponse o

section Handlers

variable {id o : Uuid} {settings : Settings}

theorem changes_of_looks {α : Type} {p : Handler α}
    (h : p.Uses fun statement => statement.looks = true) : p.Uses (Statement.Changes o) := by
  apply h.mono
  intro statement hlooks
  cases statement with
  | updateOrder o' change => cases hlooks
  | insertItems o' lines => cases hlooks
  | deleteItems o' ids => cases hlooks
  | insertOperation userID operationType => cases hlooks
  | commit => cases hlooks
  | _ => trivial

theorem endsWith_updateFinish (subject : Uuid) (order assigned : Order) (items : List OrderItem)
    (placement : Placement) :
    (updateOrder.finish subject o order items placement assigned).EndsWith (Statement.Changes o)
      (commitOrder o) := by
  apply Program.endsWith_bind (uses_flushOrder order assigned fun _ => rfl)
  intro _
  refine Program.endsWith_bind (uses_query rfl) fun _ => ?_
  refine Program.endsWith_bind (uses_query rfl) fun _ => ?_
  refine Program.endsWith_bind (uses_query rfl) fun _ => ?_
  exact .refl _

theorem endsWith_updateOrder (subject : Uuid) (payload : OrderUpdateRequest) :
    (updateOrder settings subject o payload).EndsWith (Statement.Changes o) (commitOrder o) := by
  apply Program.endsWith_bind (changes_of_looks (looks_requireRoles _ subject))
  intro user
  apply Program.endsWith_bind (changes_of_looks (looks_loadOrder subject user o))
  intro order
  apply Program.endsWith_bind (uses_raiseIf _ _)
  intro _
  apply Program.endsWith_bind (changes_of_looks (looks_checkRateLimit subject _))
  intro _
  refine Program.endsWith_bind (uses_query trivial) fun items => ?_
  refine Program.endsWith_bind (uses_query trivial) fun products => ?_
  apply Program.endsWith_bind (uses_returnApi _)
  intro placement
  have hflush : ∀ changes, (flushStocks changes).Uses (Statement.Changes o) :=
    fun changes => uses_flushStocks changes fun _ _ => trivial
  cases order.promoCodeID with
  | none =>
      apply Program.endsWith_bind (hflush _)
      intro _
      exact endsWith_updateFinish subject order _ items placement
  | some promoID =>
      refine Program.endsWith_bind (uses_query trivial) fun found => ?_
      apply Program.endsWith_bind (uses_require _ found)
      intro promo
      refine Program.endsWith_bind (uses_query trivial) fun now => ?_
      apply Program.endsWith_bind (uses_returnApi _)
      intro _
      split
      · apply Program.endsWith_bind (hflush _)
        intro _
        apply Program.endsWith_bind (uses_flushUses promo _ trivial)
        intro _
        exact endsWith_updateFinish subject order _ items placement
      · apply Program.endsWith_bind (uses_returnApi _)
        intro discount
        apply Program.endsWith_bind (hflush _)
        intro _
        exact endsWith_updateFinish subject order _ items placement

theorem endsWith_cancelOrder (subject : Uuid) :
    (cancelOrder subject o).EndsWith (Statement.Changes o) (commitOrder o) := by
  have hflush : ∀ changes, (flushStocks changes).Uses (Statement.Changes o) :=
    fun changes => uses_flushStocks changes fun _ _ => trivial
  have hfinish : ∀ order, (cancelOrder.finish o order).EndsWith (Statement.Changes o)
      (commitOrder o) := by
    intro order
    apply Program.endsWith_bind (uses_flushOrder order _ fun _ => rfl)
    intro _
    exact .refl _
  apply Program.endsWith_bind (changes_of_looks (looks_requireRoles _ subject))
  intro user
  apply Program.endsWith_bind (changes_of_looks (looks_loadOrder subject user o))
  intro order
  apply Program.endsWith_bind (uses_raiseIf _ _)
  intro _
  refine Program.endsWith_bind (uses_query trivial) fun items => ?_
  refine Program.endsWith_bind (uses_query trivial) fun products => ?_
  cases order.promoCodeID with
  | none =>
      apply Program.endsWith_bind (hflush _)
      intro _
      exact hfinish order
  | some promoID =>
      refine Program.endsWith_bind (uses_query trivial) fun found => ?_
      cases found with
      | none =>
          apply Program.endsWith_bind (hflush _)
          intro _
          exact hfinish order
      | some promo =>
          apply Program.endsWith_bind (hflush _)
          intro _
          apply Program.endsWith_bind (uses_flushUses promo _ trivial)
          intro _
          exact hfinish order

/-- No statement of the program writes the order `id`. -/
abbrev Apart (id : Uuid) {α : Type} (p : Handler α) : Prop :=
  p.Meets (OtherKey id) (Statement.Avoids id) fun _ => True

theorem apart_bind {α β : Type} {p : Handler α} {f : α → Handler β}
    (hp : p.Uses (Statement.Avoids id)) (hf : ∀ value, Apart id (f value)) :
    Apart id (p >>= f) :=
  Program.meets_bind hp.meets (fun value _ => hf value) fun _ _ => trivial

theorem avoids_of_catalog {α : Type} {p : Handler α}
    (h : p.Uses fun statement => statement.catalog = true) : p.Uses (Statement.Avoids id) := by
  apply h.mono
  intro statement hcatalog
  cases statement with
  | updateOrder o' change => cases hcatalog
  | insertItems o' lines => cases hcatalog
  | deleteItems o' ids => cases hcatalog
  | _ => trivial

theorem avoids_of_looks {α : Type} {p : Handler α}
    (h : p.Uses fun statement => statement.looks = true) : p.Uses (Statement.Avoids id) :=
  avoids_of_catalog (catalog_of_looks h)

theorem avoids_of_endsWith {p : Handler Response} (hne : o ≠ id)
    (h : p.EndsWith (Statement.Changes o) (commitOrder o)) : p.Uses (Statement.Avoids id) := by
  apply h.uses
  · intro statement hchanges
    cases statement with
    | updateOrder o' change => exact fun heq => hne (hchanges.symm.trans heq)
    | insertItems o' lines => exact fun heq => hne (hchanges.symm.trans heq)
    | deleteItems o' ids => exact fun heq => hne (hchanges.symm.trans heq)
    | _ => trivial
  · refine Program.uses_bind (uses_query trivial) fun _ => ?_
    exact uses_orderResponse trivial trivial

theorem apart_createFinish (subject : Uuid) (placement : Placement) (order : Order) :
    Apart id (createOrder.finish subject placement order) := by
  refine ⟨trivial, fun answer htruth => ?_⟩
  cases answer with
  | error error => trivial
  | ok o =>
      change Apart id (query (.insertItems o placement.lines) >>= _)
      apply Program.Uses.meets
      refine Program.uses_bind (uses_query htruth) fun _ => ?_
      refine Program.uses_bind (uses_query trivial) fun _ => ?_
      refine Program.uses_bind (uses_query trivial) fun _ => ?_
      exact uses_orderResponse trivial trivial

theorem apart_createOrder (subject : Uuid) (payload : OrderCreateRequest) :
    Apart id (createOrder settings subject payload) := by
  have hflush : ∀ changes, (flushStocks changes).Uses (Statement.Avoids id) :=
    fun changes => uses_flushStocks changes fun _ _ => trivial
  apply apart_bind (avoids_of_looks (looks_requireRoles _ subject))
  intro user
  apply apart_bind (avoids_of_looks (looks_checkRateLimit subject _))
  intro _
  refine apart_bind (uses_query trivial) fun active => ?_
  apply apart_bind (uses_raiseIf _ _)
  intro _
  refine apart_bind (uses_query trivial) fun products => ?_
  apply apart_bind (uses_returnApi _)
  intro placement
  cases payload.promoCode with
  | none =>
      apply apart_bind (hflush _)
      intro _
      exact apart_createFinish subject placement _
  | some code =>
      apply apart_bind (avoids_of_looks (looks_applyPromo code _))
      rintro ⟨promoID, promo, discount⟩
      apply apart_bind (hflush _)
      intro _
      apply apart_bind (uses_flushUses promo _ trivial)
      intro _
      exact apart_createFinish subject placement _

theorem apart_handle {request : Request} (h : ¬ request.Concerns id) :
    Apart id (handle settings request) := by
  cases request with
  | createProduct subject payload =>
      exact (avoids_of_catalog (catalog_createProduct subject payload)).meets
  | updateProduct subject p payload =>
      exact (avoids_of_catalog (catalog_updateProduct subject p payload)).meets
  | deleteProduct subject p =>
      exact (avoids_of_catalog (catalog_deleteProduct subject p)).meets
  | createPromoCode subject payload =>
      exact (avoids_of_catalog (catalog_createPromoCode subject payload)).meets
  | createOrder subject payload => exact apart_createOrder subject payload
  | updateOrder subject o payload =>
      exact (avoids_of_endsWith h (endsWith_updateOrder subject payload)).meets
  | cancelOrder subject o => exact (avoids_of_endsWith h (endsWith_cancelOrder subject)).meets

end Handlers

/-! ## Served requests -/

section Served

variable {id : Uuid} {settings : Settings} {draw : Draw} {request : Request} {rows rows' : Rows}
  {result : Except HandlerError Response}

theorem serve_kept (horder : .order id ∈ rows) (hother : ¬ request.Concerns id)
    (h : request.serve settings draw rows = some (result, rows')) : Kept id rows rows' := by
  rw [serve_eq] at h
  obtain ⟨⟨result', t⟩, hrun, heq⟩ := Option.map_eq_some_iff.mp h
  obtain ⟨rfl, rfl⟩ := Prod.mk.inj heq
  have hstart : Keeping id rows ⟨rows, ∅⟩ := by
    constructor
    · exact .refl id rows
    · have hseen : (⟨rows, ∅⟩ : Draft).seen = rows := AList.empty_union
      rw [hseen]
      exact .refl id rows
  have hend := (apart_handle hother).alone
    (fun statement s answer s' havoids hkeep hexec => hkeep.effect horder havoids hexec) hrun hstart
  exact hend.2.committed

theorem update_writes (t : Draft) (k : Key) (set : Row k → Row k) (check : Row k → Bool) :
    (t.update k set check).2 = t ∨ ∃ row, (t.update k set check).2 = t.put k row := by
  rw [Draft.update]
  cases t.seen.lookup k with
  | none => exact Or.inl rfl
  | some row =>
      by_cases hcheck : check (set row) = true
      · exact Or.inr ⟨set row, by simp only [if_pos hcheck]⟩
      · exact Or.inl (by simp only [if_neg hcheck])

theorem insert_writes {t t' : Draft} {k : Key} {row : Row k} (h : t.insert k row = some t') :
    t' = t.put k row := by
  rw [Draft.insert] at h
  split at h
  · cases h
  · exact (Option.some.inj h).symm

/-- A statement other than the commit writes at most one row, which is not committed. -/
theorem effect_writes {t t' : Draft} {statement : Statement} {answer : Answer statement}
    (hcommit : statement ≠ .commit) (h : onDraft draw statement t = some (answer, t')) :
    t' = t ∨ ∃ k row, t' = t.put k row := by
  have hupdate : ∀ {k : Key} {set : Row k → Row k} {check : Row k → Bool}
      {answer : Except DbError Unit}, t.update k set check = (answer, t') →
      t' = t ∨ ∃ k row, t' = t.put k row := by
    intro k set check answer heq
    have hwrites := update_writes t k set check
    rw [heq] at hwrites
    rcases hwrites with hsame | ⟨row, hput⟩
    · exact Or.inl hsame
    · exact Or.inr ⟨k, row, hput⟩
  have hinserted : ∀ {α : Type} {k : Key} {row : Row k} {value answer : Except DbError α},
      (t.insert k row).map (fun t => (value, t)) = some (answer, t') →
      t' = t ∨ ∃ k row, t' = t.put k row := by
    intro α k row value answer heq
    obtain ⟨t₁, hinsert, hpair⟩ := Option.map_eq_some_iff.mp heq
    obtain ⟨_, rfl⟩ := Prod.mk.inj hpair
    exact Or.inr ⟨k, row, insert_writes hinsert⟩
  have hsame : ∀ {α : Type} {value answer : Except DbError α},
      some (value, t) = some (answer, t') → t' = t ∨ ∃ k row, t' = t.put k row := by
    intro α value answer heq
    obtain ⟨_, rfl⟩ := Prod.mk.inj (Option.some.inj heq)
    exact Or.inl rfl
  cases statement with
  | updateStock p stock => exact hupdate (Option.some.inj h)
  | updateUses q uses => exact hupdate (Option.some.inj h)
  | updateOrder o change => exact hupdate (Option.some.inj h)
  | updateProduct p change =>
      simp only [onDraft, Draft.effect] at h
      split at h
      · split at h
        · exact hsame h
        · exact hupdate (Option.some.inj h)
      · exact hsame h
  | insertOrder order =>
      simp only [onDraft, Draft.effect] at h
      split at h
      · exact hinserted h
      · exact hsame h
  | insertProduct product =>
      simp only [onDraft, Draft.effect] at h
      split at h
      · exact hinserted h
      · exact hsame h
  | insertOperation userID operationType => exact hinserted h
  | insertItems o lines =>
      simp only [onDraft, Draft.effect] at h
      split at h
      · obtain ⟨_, rfl⟩ := Prod.mk.inj (Option.some.inj h)
        exact Or.inr ⟨_, _, rfl⟩
      · cases h
  | deleteItems o ids =>
      obtain ⟨_, hend⟩ := Prod.mk.inj (Option.some.inj h)
      exact hupdate (Prod.ext rfl hend)
  | insertPromo promo =>
      simp only [onDraft, Draft.effect] at h
      split at h
      · split at h
        · cases h
        · split at h
          · exact hsame h
          · obtain ⟨_, rfl⟩ := Prod.mk.inj (Option.some.inj h)
            exact Or.inr ⟨_, _, rfl⟩
      · exact hsame h
  | commit => exact absurd rfl hcommit
  | _ => exact hsame h

theorem commitOrder_ok {t t' : Draft} {error : HandlerError} (h : .order id ∈ t.seen) :
    (commitOrder id).alone (onDraft draw) t ≠ some (.error error, t') := by
  intro hrun
  obtain ⟨order, horder⟩ := Option.isSome_iff_exists.mp (AList.lookup_isSome.mpr h)
  have hreturns : Returns draw (commitOrder id) t
      (.order ⟨id, order, itemsOf t.seen id⟩) ⟨t.seen, ∅⟩ := by
    apply returns_commit.mpr
    have hafter : (⟨t.seen, ∅⟩ : Draft).seen.lookup (.order id) = some order := by
      rw [Draft.seen_of_written]
      exact horder
    apply (returns_orderResponse hafter).mpr
    rw [Draft.seen_of_written]
    exact ⟨rfl, rfl⟩
  rw [hreturns] at hrun
  cases hrun

/-- An update or a cancellation that fails commits nothing. -/
theorem serve_failed {error : HandlerError} (horder : .order id ∈ rows)
    (hconcerns : request.Concerns id)
    (h : request.serve settings draw rows = some (.error error, rows')) : rows' = rows := by
  have hends : (handle settings request).EndsWith (Statement.Changes id) (commitOrder id) := by
    cases request with
    | updateOrder subject o payload =>
        obtain rfl : o = id := hconcerns
        exact endsWith_updateOrder subject payload
    | cancelOrder subject o =>
        obtain rfl : o = id := hconcerns
        exact endsWith_cancelOrder subject
    | _ => cases hconcerns
  rw [serve_eq] at h
  obtain ⟨⟨result, t⟩, hrun, heq⟩ := Option.map_eq_some_iff.mp h
  obtain ⟨rfl, rfl⟩ := Prod.mk.inj heq
  have hstart : .order id ∈ (⟨rows, ∅⟩ : Draft).seen := by
    have hseen : (⟨rows, ∅⟩ : Draft).seen = rows := AList.empty_union
    rwa [hseen]
  have hstep : ∀ statement t answer t', Statement.Changes id statement →
      t.rows = rows ∧ .order id ∈ t.seen → onDraft draw statement t = some (answer, t') →
      t'.rows = rows ∧ .order id ∈ t'.seen := by
    rintro statement t answer t' hchanges ⟨hrows, hseen⟩ heffect
    have hcommit : statement ≠ .commit := by
      rintro rfl
      exact hchanges
    rcases effect_writes hcommit heffect with rfl | ⟨k, row, rfl⟩
    · exact ⟨hrows, hseen⟩
    · refine ⟨hrows, ?_⟩
      rw [Draft.seen_put]
      exact (AList.mem_insert _).mpr (Or.inr hseen)
  exact (hends.alone_error hstep (fun t error t' h => commitOrder_ok h.2) hrun ⟨rfl, hstart⟩).1

end Served

end SoaHomework.Marketplace
