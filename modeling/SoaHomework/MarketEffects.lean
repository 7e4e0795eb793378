import SoaHomework.MarketOrders

/-!
# What a commit of the marketplace does

`Effect` lists what the commit of each request can do to the committed rows.
Products are written under their row locks, so their new rows are stated from
the committed ones. The order, its items and the promo code have been read
without a lock; what is written to them is stated from what the session had
loaded, whatever the committed rows are by then. The ledgers move as they
should when the loaded rows are still current (`Current`).
-/

namespace SoaHomework.Marketplace

open StatementProgram

/-! ## The effects -/

/-- The promo row `q` after `current_uses` has been assigned in `uses`. -/
def assignUses (uses : Option (Uuid × Int)) (q : Uuid) (promo : PromoCode) : PromoCode :=
  match uses with
  | some (id, n) => if id = q then { promo with currentUses := n } else promo
  | none => promo

/-- The order row after the flush of `assigned` over the present row. -/
def assignOrder (loaded assigned present : Order) : Order :=
  if assigned = loaded then present
  else ((orderChange loaded assigned).apply present).stored

/-- What the commit of a request on the order `orderID` does to the other
    rows: the stocks move by `change`, one promo counter may be assigned. -/
structure OrderWrite (written rows rows' : Rows) (orderID : Uuid) (change : Uuid → Int)
    (uses : Option (Uuid × Int)) : Prop where
  products : ∀ p, rows'.lookup (.product p) =
    (rows.lookup (.product p)).map fun product => product.addStock (change p)
  nonneg : ∀ p product, rows.lookup (.product p) = some product → 0 ≤ product.stock →
    0 ≤ product.stock + change p
  promos : ∀ q, rows'.lookup (.promo q) = (rows.lookup (.promo q)).map (assignUses uses q)
  uses : ∀ q n, uses = some (q, n) → .promo q ∈ written
  others : ∀ id, id ≠ orderID → rows'.lookup (.order id) = rows.lookup (.order id) ∧
    rows'.lookup (.items id) = rows.lookup (.items id)

/-- The use that `create_order` adds. -/
inductive PromoUse (session : Session) (rows : Rows) (order : Order) :
    Option String → Option (Uuid × Int) → Prop where
  | without (hnone : order.promoCodeID = none) : PromoUse session rows order none none
  | use (code : String) (q : Uuid) (promo : PromoCode)
      (hsession : session.promo = some (q, promo)) (hexists : .promo q ∈ rows)
      (hleft : promo.currentUses < promo.maxUses) (horder : order.promoCodeID = some q) :
      PromoUse session rows order (some code) (some (q, promo.currentUses + 1))

/-- The counter that gives a use back, when the attribute changes at all. -/
def returnedUse (q : Uuid) (promo : PromoCode) : Option (Uuid × Int) :=
  if 0 < promo.currentUses then some (q, promo.currentUses - 1) else none

/-- What `update_order` does to the promo of the order. -/
inductive PromoKeep (session : Session) (loaded assigned : Order) :
    Option (Uuid × Int) → Prop where
  | keep (hsame : assigned.promoCodeID = loaded.promoCodeID) :
      PromoKeep session loaded assigned none
  | drop (q : Uuid) (promo : PromoCode) (hloaded : loaded.promoCodeID = some q)
      (hsession : session.promo = some (q, promo)) (hnone : assigned.promoCodeID = none) :
      PromoKeep session loaded assigned (returnedUse q promo)

/-- What `cancel_order` does to the promo of the order. -/
inductive PromoReturn (session : Session) (loaded : Order) :
    Option (Uuid × Int) → Prop where
  | without (hnone : loaded.promoCodeID = none) : PromoReturn session loaded none
  | give (q : Uuid) (promo : PromoCode) (hloaded : loaded.promoCodeID = some q)
      (hsession : session.promo = some (q, promo)) :
      PromoReturn session loaded (returnedUse q promo)

/-- The commit of a request of `session` that has written `written` takes the
    committed rows from `rows` to `rows'`. -/
inductive Effect (session : Session) (written rows rows' : Rows) : Request → Prop where
  | createProduct {subject payload} (id : Uuid) (product : Product)
      (hfresh : rows.lookup (.product id) = none)
      (hproduct : rows'.lookup (.product id) = some product) (hstock : 0 ≤ product.stock)
      (hothers : ∀ k, k ≠ .product id → rows'.lookup k = rows.lookup k)
      (hassigned : product.stock = payload.stock) :
      Effect session written rows rows' (.createProduct subject payload)
  | writeProduct {request} (id : Uuid) (set : Product → Product)
      (hrequest : (∃ subject payload, request = .updateProduct subject id payload) ∨
        ∃ subject, request = .deleteProduct subject id)
      (hproduct : rows'.lookup (.product id) = (rows.lookup (.product id)).map set)
      (hstock : ∀ product, 0 ≤ product.stock → 0 ≤ (set product).stock)
      (hothers : ∀ k, k ≠ .product id → rows'.lookup k = rows.lookup k)
      (hassigned : ∀ product, (set product).stock = product.stock ∨ ∃ subject payload,
        request = .updateProduct subject id payload ∧ payload.stock = .value (set product).stock) :
      Effect session written rows rows' request
  | createPromoCode {subject payload} (id : Uuid) (promo : PromoCode)
      (hfresh : rows.lookup (.promo id) = none)
      (hpromo : rows'.lookup (.promo id) = some promo) (hunused : promo.currentUses = 0)
      (hmax : 1 ≤ promo.maxUses)
      (hothers : ∀ k, k ≠ .promo id → rows'.lookup k = rows.lookup k) :
      Effect session written rows rows' (.createPromoCode subject payload)
  | createOrder {subject payload} (uses : Option (Uuid × Int)) (id : Uuid) (order : Order)
      (items : List OrderItem)
      (hfresh : rows.lookup (.order id) = none)
      (hwrite : OrderWrite written rows rows' id
        (fun p => -quantityOf p (requestLines payload.items)) uses)
      (hfound : ∀ item ∈ payload.items, .product item.productID ∈ rows)
      (horder : rows'.lookup (.order id) = some order)
      (hitems : rows'.lookup (.items id) = some items)
      (hlines : itemLines items = requestLines payload.items)
      (huser : order.userID = subject) (hstatus : order.status = .created)
      (hpromo : PromoUse session rows order payload.promoCode uses) :
      Effect session written rows rows' (.createOrder subject payload)
  | updateOrder {subject id payload} (uses : Option (Uuid × Int)) (loaded assigned : Order)
      (items added : List OrderItem)
      (hloaded : session.order = some (id, loaded)) (hold : session.items = some (id, items))
      (hcreated : loaded.status = .created) (hexists : .order id ∈ rows)
      (hwrite : OrderWrite written rows rows' id
        (fun p => quantityOf p (itemLines items) - quantityOf p (requestLines payload.items))
        uses)
      (hfound : ∀ item ∈ payload.items, .product item.productID ∈ rows)
      (horder : rows'.lookup (.order id) =
        (rows.lookup (.order id)).map (assignOrder loaded assigned))
      (hstatus : assigned.status = loaded.status)
      (hitems : rows'.lookup (.items id) = some ((itemsOf rows id ++ added).filter
        fun item => decide (item.id ∉ items.map OrderItem.id)))
      (hlines : itemLines added = requestLines payload.items)
      (hnew : ∀ item ∈ added, item.id ∉ (itemsOf rows id).map OrderItem.id)
      (hpromo : PromoKeep session loaded assigned uses) :
      Effect session written rows rows' (.updateOrder subject id payload)
  | cancelOrder {subject id} (uses : Option (Uuid × Int)) (loaded : Order)
      (items : List OrderItem)
      (hloaded : session.order = some (id, loaded)) (hold : session.items = some (id, items))
      (hactive : loaded.status.isActive = true)
      (hwrite : OrderWrite written rows rows' id
        (fun p => quantityOf p (itemLines items)) uses)
      (horder : rows'.lookup (.order id) = (rows.lookup (.order id)).map
        (assignOrder loaded { loaded with status := .canceled }))
      (hitems : rows'.lookup (.items id) = rows.lookup (.items id))
      (hpromo : PromoReturn session loaded uses) :
      Effect session written rows rows' (.cancelOrder subject id)

/-! ## The order row after an update -/

theorem assignOrder_status {loaded assigned present : Order}
    (h : assigned.status = loaded.status) :
    (assignOrder loaded assigned present).status = present.status := by
  unfold assignOrder
  split
  · rfl
  · simp [Order.stored, OrderChange.apply, orderChange, h]

theorem assignOrder_userID (loaded assigned present : Order) :
    (assignOrder loaded assigned present).userID = present.userID := by
  unfold assignOrder
  split
  · rfl
  · rfl

theorem assignOrder_promo {loaded assigned present : Order}
    (h : assigned.promoCodeID = loaded.promoCodeID) :
    (assignOrder loaded assigned present).promoCodeID = present.promoCodeID := by
  unfold assignOrder
  split
  · rfl
  · simp [Order.stored, OrderChange.apply, orderChange, h]

theorem assignOrder_dropped {loaded assigned present : Order} {q : Uuid}
    (hloaded : loaded.promoCodeID = some q) (hnone : assigned.promoCodeID = none) :
    (assignOrder loaded assigned present).promoCodeID = none := by
  have hne : assigned ≠ loaded := by
    rintro rfl
    rw [hnone] at hloaded
    cases hloaded
  rw [assignOrder, if_neg hne]
  simp [Order.stored, OrderChange.apply, orderChange, hloaded, hnone]

theorem assignOrder_canceled {loaded present : Order} (hactive : loaded.status.isActive = true) :
    (assignOrder loaded { loaded with status := .canceled } present).status = .canceled ∧
      (assignOrder loaded { loaded with status := .canceled } present).promoCodeID =
        present.promoCodeID := by
  have hstatus : OrderStatus.canceled ≠ loaded.status := by
    intro heq
    rw [← heq] at hactive
    cases hactive
  have hne : { loaded with status := .canceled } ≠ loaded := by
    intro heq
    exact hstatus (congrArg Order.status heq)
  rw [assignOrder, if_neg hne]
  simp [Order.stored, OrderChange.apply, orderChange, hstatus]

theorem PromoKeep.assignOrder_promo {session : Session} {loaded assigned : Order}
    {uses : Option (Uuid × Int)} (h : PromoKeep session loaded assigned uses) (present : Order) :
    (assignOrder loaded assigned present).promoCodeID = present.promoCodeID ∨
      (assignOrder loaded assigned present).promoCodeID = none := by
  cases h with
  | keep hsame => exact Or.inl (Marketplace.assignOrder_promo hsame)
  | drop q promo hloaded _ hnone => exact Or.inr (assignOrder_dropped hloaded hnone)

/-! ## Well-formed rows -/

/-- What the columns and the foreign keys of the stored rows satisfy. -/
structure WellFormed (rows : Rows) : Prop where
  stock : ∀ p product, rows.lookup (.product p) = some product → 0 ≤ product.stock
  quantity : ∀ id, ∀ item ∈ itemsOf rows id, 0 ≤ item.quantity
  product : ∀ id, ∀ item ∈ itemsOf rows id, .product item.productID ∈ rows
  order : ∀ id, .items id ∈ rows → .order id ∈ rows
  promo : ∀ id o q, rows.lookup (.order id) = some o → o.promoCodeID = some q →
    .promo q ∈ rows

variable {session : Session} {written rows rows' : Rows} {request : Request}

theorem itemsOf_congr {id : Uuid} (h : rows'.lookup (.items id) = rows.lookup (.items id)) :
    itemsOf rows' id = itemsOf rows id := by
  rw [itemsOf, h, itemsOf]

theorem itemsOf_of_lookup {id : Uuid} {items : List OrderItem}
    (h : rows.lookup (.items id) = some items) : itemsOf rows id = items := by
  rw [itemsOf, h]
  rfl

theorem mem_of_lookup {k : Key} {row : Row k} (h : rows.lookup k = some row) : k ∈ rows :=
  AList.lookup_isSome.mp (by rw [h]; rfl)

theorem mem_congr {k : Key} (h : rows'.lookup k = rows.lookup k) : k ∈ rows' ↔ k ∈ rows := by
  rw [← AList.lookup_isSome, ← AList.lookup_isSome, h]

theorem mem_map {k : Key} {f : Row k → Row k} (h : rows'.lookup k = (rows.lookup k).map f) :
    k ∈ rows' ↔ k ∈ rows := by
  rw [← AList.lookup_isSome, ← AList.lookup_isSome, h, Option.isSome_map]

/-- Changing one product, or adding one, keeps the rows well formed. -/
theorem WellFormed.of_product (h : WellFormed rows) {id : Uuid}
    (hgrow : .product id ∈ rows → .product id ∈ rows')
    (hstock : ∀ product, rows'.lookup (.product id) = some product → 0 ≤ product.stock)
    (hothers : ∀ k, k ≠ .product id → rows'.lookup k = rows.lookup k) : WellFormed rows' where
  stock p product hp := by
    by_cases hid : p = id
    · subst hid
      exact hstock product hp
    · rw [hothers (.product p) (by simpa using hid)] at hp
      exact h.stock p product hp
  quantity o := by
    rw [itemsOf_congr (hothers (.items o) (by simp))]
    exact h.quantity o
  product o item hitem := by
    rw [itemsOf_congr (hothers (.items o) (by simp))] at hitem
    have hexists := h.product o item hitem
    by_cases hid : item.productID = id
    · rw [hid] at hexists ⊢
      exact hgrow hexists
    · exact (mem_congr (hothers _ (by simpa using hid))).mpr hexists
  order o ho := by
    rw [mem_congr (hothers _ (by simp))] at ho ⊢
    exact h.order o ho
  promo o row q ho hq := by
    rw [hothers _ (by simp)] at ho
    exact (mem_congr (hothers (.promo q) (by simp))).mpr (h.promo o row q ho hq)

theorem OrderWrite.stock {id : Uuid} {change : Uuid → Int} {uses : Option (Uuid × Int)}
    (h : OrderWrite written rows rows' id change uses) (hrows : WellFormed rows) (p : Uuid)
    (product : Product) (hp : rows'.lookup (.product p) = some product) : 0 ≤ product.stock := by
  rw [h.products, Option.map_eq_some_iff] at hp
  obtain ⟨old, hold, rfl⟩ := hp
  exact h.nonneg p old hold (hrows.stock p old hold)

/-- An order request keeps the rows well formed when it does so for the row and
    the items of its order. -/
theorem OrderWrite.wellFormed {id : Uuid} {change : Uuid → Int} {uses : Option (Uuid × Int)}
    (h : OrderWrite written rows rows' id change uses) (hrows : WellFormed rows)
    (hitems : ∀ item ∈ itemsOf rows' id, 0 ≤ item.quantity ∧ .product item.productID ∈ rows)
    (horder : .items id ∈ rows' → .order id ∈ rows')
    (hpromo : ∀ o q, rows'.lookup (.order id) = some o → o.promoCodeID = some q →
      .promo q ∈ rows) : WellFormed rows' where
  stock := h.stock hrows
  quantity o item hitem := by
    by_cases hid : o = id
    · subst hid
      exact (hitems item hitem).1
    · rw [itemsOf_congr (h.others o hid).2] at hitem
      exact hrows.quantity o item hitem
  product o item hitem := by
    rw [mem_map (h.products item.productID)]
    by_cases hid : o = id
    · subst hid
      exact (hitems item hitem).2
    · rw [itemsOf_congr (h.others o hid).2] at hitem
      exact hrows.product o item hitem
  order o ho := by
    by_cases hid : o = id
    · subst hid
      exact horder ho
    · rw [mem_congr (h.others o hid).2] at ho
      rw [mem_congr (h.others o hid).1]
      exact hrows.order o ho
  promo o row q ho hq := by
    rw [mem_map (h.promos q)]
    by_cases hid : o = id
    · subst hid
      exact hpromo row q ho hq
    · rw [(h.others o hid).1] at ho
      exact hrows.promo o row q ho hq

theorem mem_of_itemLines {items : List OrderItem} {requested : List OrderItemCreate}
    (h : itemLines items = requestLines requested) {item : OrderItem} (hitem : item ∈ items) :
    ∃ line ∈ requested, line.productID = item.productID ∧ line.quantity = item.quantity := by
  have hmem : (item.productID, item.quantity) ∈ requestLines requested := by
    rw [← h]
    exact List.mem_map.mpr ⟨item, hitem, rfl⟩
  obtain ⟨line, hline, heq⟩ := List.mem_map.mp hmem
  simp only [Prod.mk.injEq] at heq
  exact ⟨line, hline, heq.1, heq.2⟩

theorem Effect.wellFormed (h : Effect session written rows rows' request)
    (hrows : WellFormed rows) : WellFormed rows' := by
  cases h with
  | createProduct id product hfresh hproduct hstock hothers =>
      refine hrows.of_product (fun _ => mem_of_lookup hproduct) (fun product' hp => ?_) hothers
      rw [hproduct, Option.some.injEq] at hp
      exact hp ▸ hstock
  | writeProduct id set _ hproduct hstock hothers =>
      refine hrows.of_product (fun hid => (mem_map hproduct).mpr hid) (fun product' hp => ?_)
        hothers
      rw [hproduct, Option.map_eq_some_iff] at hp
      obtain ⟨old, hold, rfl⟩ := hp
      exact hstock old (hrows.stock id old hold)
  | createPromoCode id promo hfresh hpromo _ _ hothers =>
      refine ⟨fun p product hp => ?_, fun o => ?_, fun o item hitem => ?_, fun o ho => ?_,
        fun o row q ho hq => ?_⟩
      · rw [hothers _ (by simp)] at hp
        exact hrows.stock p product hp
      · rw [itemsOf_congr (hothers (.items o) (by simp))]
        exact hrows.quantity o
      · rw [itemsOf_congr (hothers (.items o) (by simp))] at hitem
        exact (mem_congr (hothers _ (by simp))).mpr (hrows.product o item hitem)
      · rw [mem_congr (hothers _ (by simp))] at ho ⊢
        exact hrows.order o ho
      · rw [hothers _ (by simp)] at ho
        have hexists := hrows.promo o row q ho hq
        by_cases hq' : q = id
        · rw [hq']
          exact mem_of_lookup hpromo
        · exact (mem_congr (hothers (.promo q) (by simpa using hq'))).mpr hexists
  | @createOrder _ payload uses id order items hfresh hwrite hfound horder hitems hlines _ _
      hpromo =>
      refine hwrite.wellFormed hrows (fun item hitem => ?_) (fun _ => mem_of_lookup horder) ?_
      · rw [itemsOf_of_lookup hitems] at hitem
        obtain ⟨line, hline, hid, hquantity⟩ := mem_of_itemLines hlines hitem
        refine ⟨?_, hid ▸ hfound line hline⟩
        have := line.minimum
        omega
      · intro o q ho hq
        rw [horder, Option.some.injEq] at ho
        subst ho
        generalize payload.promoCode = code at hpromo
        cases hpromo with
        | without hnone =>
            rw [hnone] at hq
            cases hq
        | use code q' promo _ hexists _ hlinked =>
            rw [hlinked, Option.some.injEq] at hq
            exact hq ▸ hexists
  | @updateOrder _ id payload uses loaded assigned items added _ _ _ hexists hwrite hfound
      horder _ hitems hlines _ hpromo =>
      refine hwrite.wellFormed hrows (fun item hitem => ?_)
        (fun _ => (mem_map horder).mpr hexists) ?_
      · rw [itemsOf_of_lookup hitems] at hitem
        rcases List.mem_append.mp (List.mem_filter.mp hitem).1 with hold | hadded
        · exact ⟨hrows.quantity _ item hold, hrows.product _ item hold⟩
        · obtain ⟨line, hline, hid, hquantity⟩ := mem_of_itemLines hlines hadded
          refine ⟨?_, hid ▸ hfound line hline⟩
          have := line.minimum
          omega
      · intro o q ho hq
        rw [horder, Option.map_eq_some_iff] at ho
        obtain ⟨present, hpresent, rfl⟩ := ho
        rcases hpromo.assignOrder_promo present with hsame | hnone
        · rw [hsame] at hq
          exact hrows.promo id present q hpresent hq
        · rw [hnone] at hq
          cases hq
  | @cancelOrder _ id uses loaded items _ _ hactive hwrite horder hitems _ =>
      refine hwrite.wellFormed hrows (fun item hitem => ?_) (fun hmem => ?_) ?_
      · rw [itemsOf_congr hitems] at hitem
        exact ⟨hrows.quantity id item hitem, hrows.product id item hitem⟩
      · rw [mem_congr hitems] at hmem
        exact (mem_map horder).mpr (hrows.order id hmem)
      · intro o q ho hq
        rw [horder, Option.map_eq_some_iff] at ho
        obtain ⟨present, hpresent, rfl⟩ := ho
        rw [(assignOrder_canceled hactive).2] at hq
        exact hrows.promo id present q hpresent hq

end SoaHomework.Marketplace
