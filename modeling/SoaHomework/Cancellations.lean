import SoaHomework.OrderUpdates

/-!
# What a cancellation does, and what is left

A cancellation succeeds exactly when the order may be canceled and the columns take
what is written (`returns_cancelOrder`). The second part says which rows an update and
a cancellation leave: each stock has moved by what the order gave back less what it
took (`Updated`, `lookup_canceled`).
-/

namespace SoaHomework.Marketplace

open StatementProgram

/-! ## Moved stocks -/

/-- The stocks of the loaded products have moved. -/
structure Moved (rows : Rows) (ids : List Uuid) (products : ProductMap) (moved : Uuid → Int) :
    Prop where
  products : ∀ p, products.lookup p =
    ((productMap rows ids).lookup p).map fun product => product.addStock (moved p)
  ids : ∀ p, moved p ≠ 0 → p ∈ ids

section Moved

variable {rows : Rows} {ids : List Uuid} {products : ProductMap} {moved : Uuid → Int}

theorem Moved.storable_iff (h : Moved rows ids products moved) :
    Storable rows (changedStocks (productMap rows ids) products) ↔
      ∀ (p : Uuid) (product : Product), rows.lookup (.product p) = some product → moved p ≠ 0 →
        (product.addStock (moved p)).fits = true := by
  constructor
  · intro hstorable p product hrow hmoved
    have hmem : (p, product.stock + moved p) ∈ changedStocks (productMap rows ids) products :=
      (mem_changedStocks_iff h.products h.ids).mpr ⟨hmoved, product, hrow, rfl⟩
    obtain ⟨product', hrow', hfits⟩ := hstorable _ hmem
    rw [hrow, Option.some.injEq] at hrow'
    rw [← hrow'] at hfits
    exact hfits
  · intro hfits change hmem
    obtain ⟨hmoved, product, hrow, hstock⟩ := (mem_changedStocks_iff h.products h.ids).mp hmem
    refine ⟨product, hrow, ?_⟩
    rw [hstock]
    exact hfits change.1 product hrow hmoved

/-- What the flush of the stocks leaves. -/
theorem Moved.lookup (h : Moved rows ids products moved) (p : Uuid) :
    (Draft.putStocks ⟨rows, ∅⟩ (changedStocks (productMap rows ids) products)).seen.lookup
        (.product p) =
      (rows.lookup (.product p) : Option Product).map
        fun product => product.addStock (moved p) := by
  have hseen : (⟨rows, ∅⟩ : Draft).seen = rows := AList.empty_union
  by_cases hchanged : ∃ stock, (p, stock) ∈ changedStocks (productMap rows ids) products
  · obtain ⟨stock, hmem⟩ := hchanged
    obtain ⟨_, product, hrow, hstock⟩ := (mem_changedStocks_iff h.products h.ids).mp hmem
    have hstart : (⟨rows, ∅⟩ : Draft).seen.lookup (.product p) = some product := by
      rw [hseen]
      exact hrow
    rw [Draft.lookup_putStocks _ (nodup_changedStocks _ _) hmem hstart, hrow, hstock]
    rfl
  · have hother : ∀ change ∈ changedStocks (productMap rows ids) products,
        Key.product p ≠ .product change.1 := by
      rintro ⟨p', stock⟩ hmem heq
      have hp : p = p' := Key.product.inj heq
      rw [← hp] at hmem
      exact hchanged ⟨stock, hmem⟩
    rw [Draft.lookup_putStocks_other _ hother, hseen]
    cases hrow : (rows.lookup (.product p) : Option Product) with
    | none => rfl
    | some product =>
        have hmoved : moved p = 0 := by
          by_contra hne
          exact hchanged ⟨product.stock + moved p,
            (mem_changedStocks_iff h.products h.ids).mpr ⟨hne, product, hrow, rfl⟩⟩
        rw [hmoved, Option.map_some, Product.addStock_zero]

end Moved

theorem moved_update (rows : Rows) (id : Uuid) (items : List OrderItemCreate) :
    Moved rows (updateProductIDs (requestedTotals items) (itemsOf rows id))
      (updatePlacement rows id items).products (movedStock (itemsOf rows id) items) :=
  ⟨lookup_products_placed _ _ _, fun _ => (covers_update rows id items).of_moved⟩

/-- The quantity of a product that the order holds. -/
def heldIn (rows : Rows) (id p : Uuid) : Int :=
  quantityOf p (itemLines (itemsOf rows id))

/-- The products that a cancellation loads. -/
def cancelLoaded (rows : Rows) (id : Uuid) : ProductMap :=
  productMap rows ((itemsOf rows id).map OrderItem.productID)

/-- The stocks that a cancellation flushes. -/
def cancelStocks (rows : Rows) (id : Uuid) : List (Uuid × Int) :=
  changedStocks (cancelLoaded rows id) (giveBack (cancelLoaded rows id) (itemsOf rows id))

theorem moved_cancel (rows : Rows) (id : Uuid) :
    Moved rows ((itemsOf rows id).map OrderItem.productID)
      (giveBack (cancelLoaded rows id) (itemsOf rows id)) (heldIn rows id) := by
  constructor
  · exact lookup_giveBack _ _
  · intro p hheld
    by_contra hnone
    apply hheld
    apply quantityOf_eq_zero
    rwa [itemLines, List.map_map]

/-! ## The use of the promo code -/

def PromoCode.withUses (promo : PromoCode) (uses : Int) : PromoCode :=
  { promo with currentUses := uses }

/-- The counter after a use is given back. -/
def PromoCode.usesLeft (promo : PromoCode) : Int :=
  if 0 < promo.currentUses then promo.currentUses - 1 else promo.currentUses

/-- The promo code of the order, if its row is there. -/
def loadedPromo (rows : Rows) (order : Order) : Option (Uuid × PromoCode) :=
  order.promoCodeID.bind fun q => (rows.lookup (.promo q) : Option PromoCode).map fun promo =>
    (q, promo)

def flushReturned : Option (Uuid × PromoCode) → Handler Unit
  | none => .ret ()
  | some (q, promo) => flushUses q promo promo.usesLeft

/-- The counter may be given back. -/
def Returnable (loaded : Option (Uuid × PromoCode)) : Prop :=
  ∀ q promo, loaded = some (q, promo) →
    promo.usesLeft = promo.currentUses ∨ (promo.withUses promo.usesLeft).fits = true

def Draft.putReturned (t : Draft) : Option (Uuid × PromoCode) → Draft
  | none => t
  | some (q, promo) =>
      if promo.usesLeft = promo.currentUses then t
      else t.put (.promo q) (promo.withUses promo.usesLeft)

section Cancel

variable {draw : Draw} {rows : Rows} {subject id : Uuid} {t t' : Draft}

theorem Draft.lookup_putReturned (t : Draft) (loaded : Option (Uuid × PromoCode)) {k : Key}
    (hk : ∀ q, k ≠ .promo q) : (t.putReturned loaded).seen.lookup k = t.seen.lookup k := by
  rcases loaded with _ | ⟨q, promo⟩
  · rfl
  · simp only [Draft.putReturned]
    split
    · rfl
    · exact t.lookup_put_of_ne (hk q)

theorem returns_flushReturned {loaded : Option (Uuid × PromoCode)} {result : Unit}
    (hrow : ∀ q promo, loaded = some (q, promo) → t.seen.lookup (.promo q) = some promo) :
    Returns draw (flushReturned loaded) t result t' ↔
      Returnable loaded ∧ t' = t.putReturned loaded := by
  rcases loaded with _ | ⟨q, promo⟩
  · simp [flushReturned, returns_ret, Returnable, Draft.putReturned]
  · simp only [flushReturned, flushUses, Draft.putReturned, Returnable, Option.some.injEq,
      Prod.mk.injEq, and_imp, forall_eq', forall_apply_eq_imp_iff]
    by_cases hsame : promo.usesLeft = promo.currentUses
    · rw [if_pos hsame, if_pos hsame, returns_ret]
      simp [hsame]
    · rw [if_neg hsame, if_neg hsame, returns_query]
      by_cases hfits : (promo.withUses promo.usesLeft).fits = true
      · have hupdate : t.update (.promo q)
            (fun p : PromoCode => p.withUses promo.usesLeft) PromoCode.fits =
              (.ok (), t.put (.promo q) (PromoCode.withUses promo promo.usesLeft)) :=
          Draft.update_ok (hrow q promo rfl) hfits
        have hexec : onDraft draw (.updateUses q promo.usesLeft) t =
            some (.ok (), t.put (.promo q) (PromoCode.withUses promo promo.usesLeft)) :=
          congrArg some hupdate
        rw [hexec]
        simp [hfits, eq_comm]
      · obtain ⟨error, hupdate⟩ : ∃ error, t.update (.promo q)
            (fun p : PromoCode => p.withUses promo.usesLeft) PromoCode.fits =
              (.error error, t) := by
          apply Draft.update_error
          intro row hrow' hfits'
          rw [hrow q promo rfl, Option.some.injEq] at hrow'
          rw [← hrow'] at hfits'
          exact hfits hfits'
        have hexec : onDraft draw (.updateUses q promo.usesLeft) t = some (.error error, t) :=
          congrArg some hupdate
        rw [hexec]
        simp [hsame, hfits]

/-! ## The whole cancellation -/

def Order.canceled (order : Order) : Order :=
  { order with status := .canceled }

/-- The cancellation passes its checks, and the columns take what it writes. -/
structure Cancelable (rows : Rows) (subject id : Uuid) (order : Order) : Prop where
  allowed : Allowed rows subject id order
  active : order.status.isActive = true
  storable : Storable rows (cancelStocks rows id)
  returnable : Returnable (loadedPromo rows order)
  amounts : order.canceled.stored.fits = true

/-- What a cancellation leaves when it commits. -/
def canceledRows (rows : Rows) (id : Uuid) (order : Order) : Draft :=
  let t := Draft.putStocks ⟨rows, ∅⟩ (cancelStocks rows id)
  let t := t.putReturned (loadedPromo rows order)
  let t := t.putOrder id order order.canceled
  ⟨t.seen, ∅⟩

/-- What follows the checks of a cancellation. -/
def giveOrderBack (id : Uuid) (order : Order) (items : List OrderItem) (products : ProductMap) :
    Handler Response :=
  let returned := giveBack products items
  match order.promoCodeID with
  | none => do
      flushStocks (changedStocks products returned)
      cancelOrder.finish id order
  | some promoID => do
      match ← query (.selectPromo promoID) with
      | none =>
          flushStocks (changedStocks products returned)
          cancelOrder.finish id order
      | some promo =>
          let uses := if 0 < promo.currentUses then promo.currentUses - 1 else promo.currentUses
          flushStocks (changedStocks products returned)
          flushUses promoID promo uses
          cancelOrder.finish id order

theorem cancelOrder_eq (subject id : Uuid) :
    cancelOrder subject id =
      requireRoles [.user, .admin] subject >>= fun user =>
        loadOrder subject user id >>= fun order =>
          Program.raiseIf (!order.status.isActive) (.api .invalidStateTransition) >>= fun _ =>
            query (.selectItems id) >>= fun items =>
              query (.selectProductsForUpdate (items.map OrderItem.productID)) >>=
                giveOrderBack id order items := rfl

theorem returns_giveOrderBack {order : Order} {items : List OrderItem} {products : ProductMap}
    {response : Response} :
    Returns draw (giveOrderBack id order items products) ⟨rows, ∅⟩ response t ↔
      Returns draw (flushStocks (changedStocks products (giveBack products items)) >>= fun _ =>
        flushReturned (loadedPromo rows order) >>= fun _ => cancelOrder.finish id order)
          ⟨rows, ∅⟩ response t := by
  obtain ⟨userID, status, promoCodeID, total, discount⟩ := order
  cases promoCodeID with
  | none => exact Iff.rfl
  | some q =>
      have hread : answerOf (⟨rows, ∅⟩ : Draft).seen (.selectPromo q) =
          some (rows.lookup (.promo q)) := by
        have hseen : (⟨rows, ∅⟩ : Draft).seen = rows := AList.empty_union
        rw [hseen]
        rfl
      change Returns draw (query (.selectPromo q) >>= _) ⟨rows, ∅⟩ response t ↔ _
      rw [returns_read hread, loadedPromo, Option.bind_some]
      cases (rows.lookup (.promo q) : Option PromoCode) with
      | none => exact Iff.rfl
      | some promo => exact Iff.rfl

theorem canceled_ne (order : Order) (hactive : order.status.isActive = true) :
    order.canceled ≠ order := by
  intro heq
  rw [← heq] at hactive
  cases hactive

theorem returns_cancelFinish {order : Order} (hrow : t.seen.lookup (.order id) = some order)
    (hactive : order.status.isActive = true) {response : Response} :
    Returns draw (cancelOrder.finish id order) t response t' ↔
      order.canceled.stored.fits = true ∧
        t' = ⟨(t.putOrder id order order.canceled).seen, ∅⟩ ∧
        response = .order ⟨id, order.canceled.stored, itemsOf t.seen id⟩ := by
  have hne := canceled_ne order hactive
  have hflushed : order.flushed order.canceled = order.canceled.stored := if_neg hne
  have hafter : (⟨(t.putOrder id order order.canceled).seen, ∅⟩ : Draft).seen.lookup (.order id) =
      some order.canceled.stored := by
    rw [Draft.seen_of_written, lookup_putOrder_self hrow, hflushed]
  have huser : order.canceled.userID = order.userID := rfl
  change Returns draw (flushOrder id order order.canceled >>= fun _ => query .commit >>= fun _ =>
    orderResponse id) t response t' ↔ _
  rw [returns_bind]
  simp only [returns_flushOrder hrow huser]
  constructor
  · rintro ⟨_, _, ⟨hfits, rfl⟩, hrest⟩
    obtain ⟨rfl, rfl⟩ := (returns_orderResponse hafter).mp (returns_commit.mp hrest)
    rw [Draft.seen_of_written, itemsOf_putOrder]
    exact ⟨hfits.resolve_left hne, rfl, rfl⟩
  · rintro ⟨hfits, rfl, rfl⟩
    refine ⟨(), _, ⟨Or.inr hfits, rfl⟩, returns_commit.mpr ?_⟩
    apply (returns_orderResponse hafter).mpr
    rw [Draft.seen_of_written, itemsOf_putOrder]
    exact ⟨rfl, rfl⟩

/-- An order is canceled if and only if the checks pass. -/
theorem returns_cancelOrder {response : Response} :
    Returns draw (cancelOrder subject id) ⟨rows, ∅⟩ response t ↔
      ∃ order, Cancelable rows subject id order ∧ t = canceledRows rows id order ∧
        response = .order ⟨id, order.canceled.stored, itemsOf rows id⟩ := by
  have hseen : (⟨rows, ∅⟩ : Draft).seen = rows := AList.empty_union
  have hitems : answerOf (⟨rows, ∅⟩ : Draft).seen (.selectItems id) = some (itemsOf rows id) := by
    rw [hseen]
    rfl
  have hproducts : answerOf (⟨rows, ∅⟩ : Draft).seen (.selectProductsForUpdate
      ((itemsOf rows id).map OrderItem.productID)) = some (cancelLoaded rows id) := by
    rw [hseen]
    rfl
  have hwritten : ∀ order, rows.lookup (.order id) = some order → order.status.isActive = true →
      (Returns draw (flushStocks (cancelStocks rows id) >>= fun _ =>
        flushReturned (loadedPromo rows order) >>= fun _ => cancelOrder.finish id order)
          ⟨rows, ∅⟩ response t ↔
        Storable rows (cancelStocks rows id) ∧ Returnable (loadedPromo rows order) ∧
          order.canceled.stored.fits = true ∧ t = canceledRows rows id order ∧
          response = .order ⟨id, order.canceled.stored, itemsOf rows id⟩) := by
    intro order hrow hactive
    have hpromo : ∀ q promo, loadedPromo rows order = some (q, promo) →
        (Draft.putStocks ⟨rows, ∅⟩ (cancelStocks rows id)).seen.lookup (.promo q) =
          some promo := by
      intro q promo hloaded
      obtain ⟨q', _, hmap⟩ := Option.bind_eq_some_iff.mp hloaded
      obtain ⟨promo', hpromo, heq⟩ := Option.map_eq_some_iff.mp hmap
      obtain ⟨rfl, rfl⟩ := Prod.mk.inj heq
      exact (lookup_putStocks_start (by simp)).trans hpromo
    have horder : ((Draft.putStocks ⟨rows, ∅⟩ (cancelStocks rows id)).putReturned
        (loadedPromo rows order)).seen.lookup (.order id) = some order := by
      rw [Draft.lookup_putReturned _ _ (by simp)]
      exact (lookup_putStocks_start (by simp)).trans hrow
    have hheld : itemsOf ((Draft.putStocks ⟨rows, ∅⟩ (cancelStocks rows id)).putReturned
        (loadedPromo rows order)).seen id = itemsOf rows id := by
      rw [itemsOf, Draft.lookup_putReturned _ _ (by simp), lookup_putStocks_start (by simp),
        itemsOf]
    have hnodup : ((cancelStocks rows id).map Prod.fst).Nodup := nodup_changedStocks _ _
    rw [returns_bind]
    simp only [returns_flushStocks hnodup, hseen]
    constructor
    · rintro ⟨_, _, ⟨hstorable, rfl⟩, hrest⟩
      obtain ⟨_, _, hreturned, hfinish⟩ := returns_bind.mp hrest
      obtain ⟨hreturnable, rfl⟩ := (returns_flushReturned hpromo).mp hreturned
      obtain ⟨hfits, hend, hresponse⟩ := (returns_cancelFinish horder hactive).mp hfinish
      rw [hheld] at hresponse
      exact ⟨hstorable, hreturnable, hfits, hend, hresponse⟩
    · rintro ⟨hstorable, hreturnable, hfits, hend, hresponse⟩
      rw [← hheld] at hresponse
      refine ⟨(), _, ⟨hstorable, rfl⟩, returns_bind.mpr ⟨(), _,
        (returns_flushReturned hpromo).mpr ⟨hreturnable, rfl⟩, ?_⟩⟩
      exact (returns_cancelFinish horder hactive).mpr ⟨hfits, hend, hresponse⟩
  rw [cancelOrder_eq, returns_bind]
  simp only [returns_requireRoles, hseen]
  constructor
  · rintro ⟨user, _, ⟨huser, hrole, rfl⟩, h⟩
    obtain ⟨order, _, hload, h⟩ := returns_bind.mp h
    obtain ⟨hrow, howner, rfl⟩ := returns_loadOrder.mp hload
    obtain ⟨_, _, hraise, h⟩ := returns_bind.mp h
    obtain ⟨hactive, rfl⟩ := returns_raiseIf.mp hraise
    rw [Bool.not_eq_false'] at hactive
    rw [hseen] at hrow
    have hback := (returns_read hproducts).mp ((returns_read hitems).mp h)
    obtain ⟨hstorable, hreturnable, hfits, hend, hresponse⟩ :=
      (hwritten order hrow hactive).mp (returns_giveOrderBack.mp hback)
    exact ⟨order, ⟨⟨⟨user, huser, hrole, howner⟩, hrow⟩, hactive, hstorable, hreturnable, hfits⟩,
      hend, hresponse⟩
  · rintro ⟨order, ⟨⟨⟨user, huser, hrole, howner⟩, hrow⟩, hactive, hstorable, hreturnable, hfits⟩,
      hend, hresponse⟩
    refine ⟨user, _, ⟨huser, hrole, rfl⟩, returns_bind.mpr ⟨order, _,
      returns_loadOrder.mpr ⟨by rw [hseen, hrow], howner, rfl⟩, ?_⟩⟩
    refine returns_bind.mpr ⟨(), _, returns_raiseIf.mpr ⟨by rw [hactive]; rfl, rfl⟩, ?_⟩
    apply (returns_read hitems).mpr
    apply (returns_read hproducts).mpr
    apply returns_giveOrderBack.mpr
    exact (hwritten order hrow hactive).mpr ⟨hstorable, hreturnable, hfits, hend, hresponse⟩

/-- The stocks that a cancellation leaves. -/
theorem lookup_canceled (order : Order) (p : Uuid) :
    (canceledRows rows id order).rows.lookup (.product p) =
      (rows.lookup (.product p) : Option Product).map
        fun product => product.addStock (heldIn rows id p) := by
  have horder : Key.product p ≠ .order id := by simp
  simp only [canceledRows]
  rw [Draft.lookup_putOrder _ _ _ _ horder, Draft.lookup_putReturned _ _ (by simp)]
  exact (moved_cancel rows id).lookup p

end Cancel

/-! ## After an update -/

/-- What the lines are priced at. -/
def pricedLines (rows : Rows) (items : List OrderItemCreate) : List ItemLine :=
  items.map fun item => ⟨item.productID, item.quantity, priceIn rows item.productID⟩

/-- The committed rows after an update, as far as it or the order is concerned. -/
structure Updated (rows : Rows) (id : Uuid) (items : List OrderItemCreate) (order : Order)
    (after : Rows) : Prop where
  users : ∀ u, after.lookup (.user u) = rows.lookup (.user u)
  promos : ∀ q, after.lookup (.promo q) = rows.lookup (.promo q)
  products : ∀ p, after.lookup (.product p) = (rows.lookup (.product p) : Option Product).map
    fun product => product.addStock (movedStock (itemsOf rows id) items p)
  order : after.lookup (.order id) = some order
  items : (itemsOf after id).map OrderItem.line = pricedLines rows items

section Updates

variable {draw : Draw} {settings : Settings} {rows after : Rows} {subject id : Uuid}
  {items : List OrderItemCreate} {order : Order}

theorem updatePlacement_lines
    (h : Placeable (giveBack (updateLoaded rows id items) (itemsOf rows id)) items) :
    (updatePlacement rows id items).lines = pricedLines rows items := by
  have hlines : ∀ items' : List OrderItemCreate, (∀ item ∈ items', item ∈ items) →
      priceItems (giveBack (updateLoaded rows id items) (itemsOf rows id)) items' =
        pricedLines rows items' := by
    intro items' hsubset
    induction items' with
    | nil => rfl
    | cons item items' ih =>
        have hrequested := mem_requestedTotals (hsubset item List.mem_cons_self)
        obtain ⟨line, hline, hid⟩ := List.mem_map.mp hrequested
        obtain ⟨product, hproduct, _⟩ := h line hline
        rw [hid] at hproduct
        have hprice : product.price = priceIn rows item.productID := by
          have hsame : priceOf (giveBack (updateLoaded rows id items) (itemsOf rows id))
              item.productID = priceIn rows item.productID := priceOf_update hrequested
          rw [← hsame, priceOf, hproduct]
          rfl
        rw [priceItems, List.filterMap_cons, hproduct, Option.map_some, hprice]
        exact congrArg _ (ih fun item' hmem => hsubset item' (List.mem_cons_of_mem item hmem))
  exact hlines items fun _ hmem => hmem

theorem itemLines_of_lines {rows' : Rows}
    (h : (itemsOf rows' id).map OrderItem.line = pricedLines rows items) :
    itemLines (itemsOf rows' id) = requestLines items := by
  have hitems : itemLines (itemsOf rows' id) =
      ((itemsOf rows' id).map OrderItem.line).map fun line => (line.productID, line.quantity) := by
    rw [List.map_map]
    rfl
  rw [hitems, h, pricedLines, List.map_map]
  rfl

theorem Updatable.updated {discount : ℚ}
    (h : Updatable settings draw rows subject id items order discount) {after : Draft}
    (hafter : after = (Draft.putStocks ⟨rows, ∅⟩ (updateStocks rows id items)).updated draw subject
      id order (order.billed (listTotal rows items) discount)
      (updatePlacement rows id items).lines) :
    Updated rows id items (order.flushed (order.billed (listTotal rows items) discount))
      after.rows := by
  have hrows : after.rows = after.seen := by
    rw [hafter]
    exact AList.empty_union.symm
  have hlookup : ∀ k : Key, k ≠ .items id → k ≠ .operation draw.operationID → k ≠ .order id →
      after.rows.lookup k =
        (Draft.putStocks ⟨rows, ∅⟩ (updateStocks rows id items)).seen.lookup k := by
    intro k hitems hoperation horder
    rw [hrows, hafter, Draft.lookup_updated _ hitems hoperation,
      Draft.lookup_putOrder _ _ _ _ horder]
  constructor
  · intro u
    rw [hlookup _ (by simp) (by simp) (by simp), lookup_putStocks_start (by simp)]
  · intro q
    rw [hlookup _ (by simp) (by simp) (by simp), lookup_putStocks_start (by simp)]
  · intro p
    rw [hlookup _ (by simp) (by simp) (by simp)]
    exact (moved_update rows id items).lookup p
  · rw [hrows, hafter, Draft.lookup_updated _ (by simp) (by simp)]
    apply lookup_putOrder_self
    rw [lookup_putStocks_start (by simp)]
    exact h.allowed.order
  · have hfresh := h.fresh
    simp only [freshIDs, Bool.and_eq_true, decide_eq_true_eq] at hfresh
    rw [hrows, hafter, Draft.itemsOf_updated, newItems_line hfresh.1.1,
      updatePlacement_lines h.placeable]

end Updates


end SoaHomework.Marketplace
