import SoaHomework.MarketTurns

/-!
# What each handler commits when it runs alone

The handlers of the marketplace, each up to its commit (`Commit`), and the
soundness of the discipline for requests one after another
(`turns_sound`).
-/

namespace SoaHomework.Marketplace

open StatementProgram

variable {shown : Set Int} {settings : Settings} {request : Request} {i : Nat} {α β : Type}
  {rows written : Rows} {s : State}

/-! ## The common parts -/

theorem turn_requireRoles (roles : List UserRole) (subject : Uuid) :
    Turn shown settings request i (On i rows ∅) (requireRoles roles subject) fun user s =>
      Acts rows subject roles user ∧ On i rows ∅ s := by
  apply turn_bind _ (turn_read rfl)
  intro found
  apply Discipline.Triple.pure
  intro hfound
  apply turn_require
  · exact fun _ _ _ => refused_of_ne (by simp [ApiError.tokenInvalid, ApiError.promoCodeInvalid])
  · intro user huser
    split
    · rename_i hrole
      exact turn_ret fun s hon => ⟨⟨hfound.symm.trans huser, hrole⟩, hon⟩
    · exact turn_fail (by simp [ApiError.accessDenied, ApiError.promoCodeInvalid])

theorem turn_checkRateLimit (subject : Uuid) (operationType : OperationType) :
    Turn shown settings request i (On i rows ∅) (checkRateLimit settings subject operationType)
      fun _ => On i rows ∅ := by
  apply turn_bind _ (turn_read rfl)
  intro last
  apply Discipline.Triple.pure
  intro _
  cases last with
  | none => exact turn_ret fun _ hon => hon
  | some createdAt =>
      apply turn_bind _ turn_now
      intro now
      apply Discipline.Triple.pure
      intro _
      unfold Program.raiseIf
      split
      · exact turn_fail (by simp [ApiError.orderLimitExceeded, ApiError.promoCodeInvalid])
      · exact turn_ret fun _ hon => hon

/-- The response is read after the commit. -/
theorem turn_orderResponse (id : Uuid) :
    Turn shown settings request i (On i rows ∅) (orderResponse id) fun _ _ => True := by
  apply turn_bind _ (turn_read rfl)
  intro found
  apply Discipline.Triple.pure
  intro _
  cases found with
  | none => exact turn_fail (by simp)
  | some order =>
      apply turn_bind _ (turn_read rfl)
      exact fun items => turn_ret fun _ _ => trivial

theorem turn_productResponse (id : Uuid) :
    Turn shown settings request i (On i rows ∅) (productResponse id) fun _ _ => True := by
  apply turn_bind _ (turn_read rfl)
  intro found
  cases found with
  | none => exact turn_fail (by simp)
  | some product => exact turn_ret fun _ _ => trivial

/-- The session has written to the catalogue only. -/
def Catalogued (i : Nat) (rows : Rows) (s : State) : Prop :=
  ∃ written : Rows, (∀ k, k.isCatalog = false → written.lookup k = none) ∧ On i rows written s

theorem catalogued_of_on (h : On i rows ∅ s) : Catalogued i rows s :=
  ⟨∅, fun _ _ => AList.lookup_empty _, h⟩

/-- An `UPDATE` of a product or a promo code. -/
theorem turn_updateCatalog {statement : Statement} (k : Key) (set : Row k → Row k)
    (check : Row k → Bool) (hk : k.isCatalog = true) (hcommit : statement ≠ .commit)
    (h : ∀ s generated result s', proceed i generated s statement = some (.ok result, s') →
      answerUpdate s (s.db.update i k set check) = some (.ok (), s')) :
    Turn shown settings request i (Catalogued i rows) (query statement)
      fun _ => Catalogued i rows := by
  apply Discipline.Triple.exists
  intro written
  apply Discipline.Triple.pure
  intro hcatalog
  refine Discipline.Triple.mono (turn_update k set check hcommit h) (fun _ _ h => h) ?_
  intro result s _ hends
  cases result with
  | error error => exact hends
  | ok result =>
      obtain ⟨row, _, hon⟩ := hends
      refine ⟨_, fun k' hk' => ?_, hon⟩
      rw [AList.lookup_insert_ne, hcatalog k' hk']
      rintro rfl
      rw [hk] at hk'
      cases hk'

theorem turn_flushStocks (changes : List (Uuid × Int)) :
    Turn shown settings request i (Catalogued i rows) (flushStocks changes)
      fun _ => Catalogued i rows := by
  induction changes with
  | nil => exact turn_ret fun _ h => h
  | cons change changes ih =>
      refine turn_bind _ (turn_updateCatalog (.product change.1)
        (fun p : Product => { p with stock := change.2 }) Product.fits rfl (by simp) ?_)
        fun _ => ih
      exact fun _ _ _ _ h => h

theorem turn_flushUses (q : Uuid) (promo : PromoCode) (uses : Int) :
    Turn shown settings request i (Catalogued i rows) (flushUses q promo uses)
      fun _ => Catalogued i rows := by
  unfold flushUses
  split
  · exact turn_ret fun _ h => h
  · refine turn_updateCatalog (.promo q)
      (fun p : PromoCode => { p with currentUses := uses }) PromoCode.fits rfl (by simp) ?_
    exact fun _ _ _ _ h => h

/-- The first flush of a handler. -/
theorem turn_flushFirst (changes : List (Uuid × Int)) :
    Turn shown settings request i (On i rows ∅) (flushStocks changes)
      fun _ => Catalogued i rows :=
  (turn_flushStocks changes).weaken _ fun _ _ hon => catalogued_of_on hon

/-! ## create_order -/

theorem itemsOf_union_of_none {id : Uuid} (h : written.lookup (.items id) = none) :
    itemsOf (written ∪ rows) id = itemsOf rows id := by
  rw [itemsOf, AList.lookup_union_right (AList.lookup_eq_none.mp h), itemsOf]

theorem turn_createOrder_finish {subject : Uuid} {payload : OrderCreateRequest}
    {placement : Placement} {order : Order} (huser : order.userID = subject)
    (hstatus : order.status = .created) (hpriced : Priced rows placement.lines)
    (hbilled : Billed rows (linesTotal placement.lines) order) :
    Turn shown settings (.createOrder subject payload) i (Catalogued i rows)
      (createOrder.finish subject placement order) fun _ _ => True := by
  apply Discipline.Triple.exists
  intro written
  apply Discipline.Triple.pure
  intro hcatalog
  apply turn_bind _ (turn_insertOrder order)
  intro id
  apply Discipline.Triple.pure
  intro hfresh
  have hnone : (written.insert (.order id) order.stored).lookup (.items id) = none := by
    rw [AList.lookup_insert_ne (by simp), hcatalog _ rfl]
  apply turn_bind _ (turn_insertItems id placement.lines)
  intro _
  rw [itemsOf_union_of_none hnone]
  apply Discipline.Triple.exists
  intro items
  apply Discipline.Triple.pure
  intro hlines
  apply Discipline.Triple.pure
  intro _
  apply turn_bind _ (turn_insertOperation subject .createOrder)
  intro _
  apply Discipline.Triple.exists
  intro operation
  apply Discipline.Triple.exists
  intro row
  apply turn_bind _ (turn_commit ?_)
  · exact fun _ => turn_orderResponse id
  · refine .createOrder id order items huser hstatus (by rwa [hlines]) (by rwa [hlines]) hfresh
      ?_ ?_ ⟨fun id' hid => ⟨?_, ?_⟩, fun _ => ?_⟩
    · rw [AList.lookup_insert_ne (by simp), AList.lookup_insert_ne (by simp), AList.lookup_insert]
    · rw [AList.lookup_insert_ne (by simp), AList.lookup_insert]
    · rw [AList.lookup_insert_ne (by simp), AList.lookup_insert_ne (by simp),
        AList.lookup_insert_ne (by simpa using hid), hcatalog _ rfl]
    · rw [AList.lookup_insert_ne (by simp), AList.lookup_insert_ne (by simpa using hid),
        AList.lookup_insert_ne (by simp), hcatalog _ rfl]
    · rw [AList.lookup_insert_ne (by simp), AList.lookup_insert_ne (by simp),
        AList.lookup_insert_ne (by simp), hcatalog _ rfl]

/-- The lines of placed items are priced as their products are. -/
theorem priced_of_placed {products : ProductMap} {items : List OrderItemCreate}
    {placement : Placement} (h : Placed products items placement)
    (hproducts : ∀ p x, products.lookup p = some x →
      ∃ y : Product, rows.lookup (.product p) = some y ∧ x.price = y.price) :
    Priced rows placement.lines := by
  intro line hline
  rw [h.lines, priceItems] at hline
  obtain ⟨item, _, hmap⟩ := List.mem_filterMap.mp hline
  obtain ⟨x, hx, rfl⟩ := Option.map_eq_some_iff.mp hmap
  obtain ⟨y, hy, hprice⟩ := hproducts item.productID x hx
  exact ⟨item.minimum, y, hy, hprice⟩

theorem productMap_rows {ids : List Uuid} {p : Uuid} {x : Product}
    (h : (productMap rows ids).lookup p = some x) : rows.lookup (.product p) = some x := by
  rw [lookup_productMap] at h
  split at h
  · exact h
  · cases h

theorem checkProducts_error {products : ProductMap} {requested : List (Uuid × Int)}
    {error : ApiError} (h : checkProducts products requested = .error error) :
    error = .productNotFound ∨ error = .productInactive := by
  induction requested with
  | nil => cases h
  | cons line requested ih =>
      simp only [checkProducts] at h
      split at h
      · exact Or.inl (Except.error.inj h).symm
      · split at h
        · exact ih h
        · exact Or.inr (Except.error.inj h).symm

theorem placeItems_error {products : ProductMap} {items : List OrderItemCreate}
    {error : ApiError} (h : placeItems products items = .error error) :
    error ≠ .promoCodeInvalid := by
  simp only [placeItems] at h
  cases hcheck : checkProducts products (requestedTotals items) with
  | error error' =>
      rw [hcheck] at h
      obtain rfl := Except.error.inj h
      rcases checkProducts_error hcheck with rfl | rfl
      · simp [ApiError.productNotFound, ApiError.promoCodeInvalid]
      · simp [ApiError.productInactive, ApiError.promoCodeInvalid]
  | ok _ =>
      rw [hcheck] at h
      by_cases hempty : (shortages products (requestedTotals items)).isEmpty = true
      · simp only [hempty, if_true] at h
        cases h
      · simp only [hempty] at h
        obtain rfl := Except.error.inj h
        simp [ApiError.insufficientStock, ApiError.promoCodeInvalid]

theorem calculateDiscount_error {promo : PromoCode} {total : ℚ} :
    calculateDiscount promo total ≠ .error .promoCodeInvalid := by
  unfold calculateDiscount
  split
  · simp [ApiError.promoCodeMinAmount, ApiError.promoCodeInvalid]
  · simp

theorem turn_placeItems {products : ProductMap} {items : List OrderItemCreate}
    {pre : State → Prop} {next : Placement → Handler β} {post : β → State → Prop}
    (h : ∀ placement, placeItems products items = .ok placement →
      Turn shown settings request i pre (next placement) post) :
    Turn shown settings request i pre (returnApi (placeItems products items) >>= next) post := by
  apply turn_returnApi
  · exact fun error herror _ _ => refused_of_ne fun heq => by
      cases heq
      exact placeItems_error herror rfl
  · exact h

theorem refused_of_other {error : HandlerError}
    (h : ∀ subject id payload, request ≠ .updateOrder subject id payload) :
    Refused shown rows request error :=
  fun _ subject id payload _ _ _ heq => absurd heq (h subject id payload)

theorem turn_applyPromo (code : String) (total : ℚ)
    (hother : ∀ subject id payload, request ≠ .updateOrder subject id payload) :
    Turn shown settings request i (On i rows ∅) (applyPromo code total) fun promo s =>
      (rows.lookup (.promo promo.1) = some promo.2.1 ∧
        calculateDiscount promo.2.1 total = .ok promo.2.2) ∧ On i rows ∅ s := by
  apply turn_bind _ (turn_read rfl)
  intro found
  apply Discipline.Triple.pure
  rintro rfl
  apply turn_require
  · exact fun _ _ _ => refused_of_other hother
  · rintro ⟨q, promo⟩ hfound
    apply turn_bind _ turn_now
    intro now
    apply Discipline.Triple.pure
    intro _
    apply turn_returnApi
    · exact fun _ _ _ _ => refused_of_other hother
    · intro _ _
      apply turn_returnApi
      · exact fun _ _ _ _ => refused_of_other hother
      · intro discount hdiscount
        exact turn_ret fun s hon => ⟨⟨promoByCode_some hfound, hdiscount⟩, hon⟩

theorem turn_createOrder (subject : Uuid) (payload : OrderCreateRequest) :
    Turn shown settings (.createOrder subject payload) i (On i rows ∅)
      (createOrder settings subject payload) fun _ _ => True := by
  apply turn_bind _ (turn_requireRoles _ subject)
  intro user
  apply Discipline.Triple.pure
  intro _
  apply turn_bind _ (turn_checkRateLimit subject .createOrder)
  intro _
  apply turn_bind _ (turn_read rfl)
  intro active
  apply Discipline.Triple.pure
  intro _
  apply turn_raiseIf (by simp [ApiError.orderHasActive, ApiError.promoCodeInvalid])
  intro _
  apply turn_bind _ (turn_read rfl)
  intro products
  apply Discipline.Triple.pure
  rintro rfl
  apply turn_placeItems
  intro placement hplacement
  have hpriced : Priced rows placement.lines :=
    priced_of_placed (placeItems_placed hplacement) fun p x hx => ⟨x, productMap_rows hx, rfl⟩
  cases payload.promoCode with
  | none =>
      apply turn_bind _ (turn_flushFirst _)
      exact fun _ => turn_createOrder_finish rfl rfl hpriced (.plain rfl rfl rfl)
  | some code =>
      apply turn_bind _ (turn_applyPromo code (linesTotal placement.lines) (by simp))
      rintro ⟨q, promo, discount⟩
      apply Discipline.Triple.pure
      rintro ⟨hrow, hdiscount⟩
      apply turn_bind _ (turn_flushFirst _)
      intro _
      apply turn_bind _ (turn_flushUses q promo _)
      exact fun _ => turn_createOrder_finish rfl rfl hpriced
        (.discounted q promo rfl hrow hdiscount rfl)

/-! ## update_order and cancel_order -/

/-- The order row is flushed, and nothing else of an order. -/
structure OrderAssigned (written : Rows) (id : Uuid) (order assigned : Order) : Prop where
  order : (written.lookup (.order id)).or (some order) = some (assignOrder order assigned order)
  items : ∀ id', written.lookup (.items id') = none
  others : ∀ id', id' ≠ id → written.lookup (.order id') = none
  users : ∀ subject, written.lookup (.user subject) = none

theorem turn_flushOrder {id : Uuid} {order assigned : Order}
    (hrow : rows.lookup (.order id) = some order) :
    Turn shown settings request i (Catalogued i rows) (flushOrder id order assigned) fun _ s =>
      ∃ written, OrderAssigned written id order assigned ∧ On i rows written s := by
  apply Discipline.Triple.exists
  intro written
  apply Discipline.Triple.pure
  intro hcatalog
  unfold flushOrder
  by_cases hsame : assigned = order
  · rw [if_pos hsame]
    refine turn_ret fun s hon => ⟨written, ⟨?_, fun _ => hcatalog _ rfl, fun _ _ => hcatalog _ rfl,
      fun _ => hcatalog _ rfl⟩, hon⟩
    rw [hcatalog _ rfl, Option.none_or, assignOrder, if_pos hsame]
  · rw [if_neg hsame]
    refine Discipline.Triple.mono (turn_update (.order id)
      (fun o : Order => ((orderChange order assigned).apply o).stored) Order.fits (by simp)
      fun _ _ _ _ h => h) (fun _ _ h => h) ?_
    intro result s _ hends
    cases result with
    | error error => exact hends
    | ok result =>
        obtain ⟨present, hpresent, hon⟩ := hends
        have hnone : written.lookup (.order id) = none := hcatalog _ rfl
        rw [AList.lookup_union_right (AList.lookup_eq_none.mp hnone), hrow,
          Option.some.injEq] at hpresent
        subst hpresent
        refine ⟨_, ⟨?_, fun id' => ?_, fun id' hid => ?_, fun _ => ?_⟩, hon⟩
        · rw [AList.lookup_insert, Option.some_or, assignOrder, if_neg hsame]
        · rw [AList.lookup_insert_ne (by simp), hcatalog _ rfl]
        · rw [AList.lookup_insert_ne (by simpa using hid), hcatalog _ rfl]
        · rw [AList.lookup_insert_ne (by simp), hcatalog _ rfl]

/-- `ORDER_NOT_FOUND` and `_require_order_owner` -/
theorem turn_loadOrder (subject id : Uuid) (user : User) :
    Turn shown settings request i (On i rows ∅) (loadOrder subject user id) fun order s =>
      (rows.lookup (.order id) = some order ∧ MayChange user subject order) ∧ On i rows ∅ s := by
  apply turn_bind _ (turn_read rfl)
  intro found
  apply Discipline.Triple.pure
  rintro rfl
  apply turn_require
  · exact fun _ _ _ => refused_of_ne (by simp [ApiError.orderNotFound, ApiError.promoCodeInvalid])
  · intro order hrow
    apply turn_raiseIf (by simp [ApiError.orderOwnershipViolation, ApiError.promoCodeInvalid])
    intro howner
    refine turn_ret fun s hon => ⟨⟨hrow, ?_⟩, hon⟩
    by_cases hadmin : user.role = .admin
    · exact Or.inl hadmin
    · refine Or.inr ?_
      simpa [hadmin] using howner

theorem turn_updateOrder_finish {subject id : Uuid} {payload : OrderUpdateRequest} {user : User}
    {placement : Placement} {order assigned : Order}
    (hacts : Acts rows subject [.user, .admin] user)
    (hrow : rows.lookup (.order id) = some order) (howner : MayChange user subject order)
    (huser : assigned.userID = order.userID) (hstatus : assigned.status = order.status)
    (hpromo : assigned.promoCodeID = order.promoCodeID ∨ assigned.promoCodeID = none)
    (hpriced : Priced rows placement.lines)
    (hbilled : Billed rows (linesTotal placement.lines) assigned) :
    Turn shown settings (.updateOrder subject id payload) i (Catalogued i rows)
      (updateOrder.finish subject id order (itemsOf rows id) placement assigned)
      fun _ _ => True := by
  apply turn_bind _ (turn_flushOrder hrow)
  intro _
  apply Discipline.Triple.exists
  intro written
  apply Discipline.Triple.pure
  intro hassigned
  apply turn_bind _ (turn_insertItems id placement.lines)
  intro _
  rw [itemsOf_union_of_none (hassigned.items id)]
  apply Discipline.Triple.exists
  intro items
  apply Discipline.Triple.pure
  intro hlines
  apply Discipline.Triple.pure
  intro hnew
  apply turn_bind _ (turn_deleteItems id _ (AList.lookup_insert _))
  intro _
  apply turn_bind _ (turn_insertOperation subject .updateOrder)
  intro _
  apply Discipline.Triple.exists
  intro operation
  apply Discipline.Triple.exists
  intro row
  apply turn_bind _ (turn_commit ?_)
  · exact fun _ => turn_orderResponse id
  · refine .updateOrder user order assigned items hacts hrow howner huser hstatus hpromo
      (by rwa [hlines]) (by rwa [hlines]) ?_ ?_ hnew ⟨fun id' hid => ⟨?_, ?_⟩, fun _ => ?_⟩
    · rw [AList.lookup_insert_ne (by simp), AList.lookup_insert_ne (by simp),
        AList.lookup_insert_ne (by simp), hassigned.order]
    · rw [AList.lookup_insert_ne (by simp), AList.lookup_insert]
    · rw [AList.lookup_insert_ne (by simp), AList.lookup_insert_ne (by simp),
        AList.lookup_insert_ne (by simp), hassigned.others id' hid]
    · rw [AList.lookup_insert_ne (by simp), AList.lookup_insert_ne (by simpa using hid),
        AList.lookup_insert_ne (by simpa using hid), hassigned.items id']
    · rw [AList.lookup_insert_ne (by simp), AList.lookup_insert_ne (by simp),
        AList.lookup_insert_ne (by simp), hassigned.users]

/-- The promo code of an order is refused for its own sake, not for its uses. -/
theorem validatePromoBasic_error {now : Int} {promo : PromoCode} {error : ApiError}
    (h : validatePromoBasic now promo true = .error error) :
    promo.active = false ∨ ¬ (promo.validFrom ≤ now ∧ now ≤ promo.validUntil) := by
  simp only [validatePromoBasic, Bool.true_eq_false, and_false, or_false] at h
  by_cases hactive : promo.active = false
  · exact Or.inl hactive
  · rw [if_neg hactive] at h
    split at h
    · cases h
    · rename_i hvalid
      exact Or.inr hvalid

theorem turn_updateOrder (subject id : Uuid) (payload : OrderUpdateRequest) :
    Turn shown settings (.updateOrder subject id payload) i (On i rows ∅)
      (updateOrder settings subject id payload) fun _ _ => True := by
  apply turn_bind _ (turn_requireRoles _ subject)
  intro user
  apply Discipline.Triple.pure
  intro hacts
  apply turn_bind _ (turn_loadOrder subject id user)
  intro order
  apply Discipline.Triple.pure
  rintro ⟨hrow, howner⟩
  apply turn_raiseIf (by simp [ApiError.invalidStateTransition, ApiError.promoCodeInvalid])
  intro _
  apply turn_bind _ (turn_checkRateLimit subject .updateOrder)
  intro _
  apply turn_bind _ (turn_read rfl)
  intro items
  apply Discipline.Triple.pure
  rintro rfl
  apply turn_bind _ (turn_read rfl)
  intro products
  apply Discipline.Triple.pure
  rintro rfl
  apply turn_placeItems
  intro placement hplacement
  have hpriced : Priced rows placement.lines := by
    refine priced_of_placed (placeItems_placed hplacement) fun p x hx => ?_
    rw [lookup_giveBack, Option.map_eq_some_iff] at hx
    obtain ⟨y, hy, rfl⟩ := hx
    exact ⟨y, productMap_rows hy, rfl⟩
  cases hpromo : order.promoCodeID with
  | none =>
      apply turn_bind _ (turn_flushFirst _)
      exact fun _ => turn_updateOrder_finish hacts hrow howner rfl rfl (Or.inr rfl) hpriced
        (.plain rfl rfl rfl)
  | some q =>
      apply turn_bind _ (turn_read rfl)
      intro found
      apply Discipline.Triple.pure
      rintro rfl
      apply turn_require
      · intro hnone s hon _ _ _ _ o q' promo heq ho hq hpromo'
        cases heq
        rw [hon.rows] at ho hpromo'
        rw [hrow, Option.some.injEq] at ho
        subst ho
        rw [hpromo, Option.some.injEq] at hq
        subst hq
        rw [hnone] at hpromo'
        cases hpromo'
      · intro promo hfound
        apply turn_bind _ turn_now
        intro now
        apply Discipline.Triple.pure
        intro hnow
        apply turn_returnApi
        · intro error herror s hon _ _ _ _ o q' promo' heq ho hq hpromo'
          cases heq
          rw [hon.rows] at ho hpromo'
          rw [hrow, Option.some.injEq] at ho
          subst ho
          rw [hpromo, Option.some.injEq] at hq
          subst hq
          rw [hfound, Option.some.injEq] at hpromo'
          subst hpromo'
          exact (validatePromoBasic_error herror).imp_right fun hvalid => ⟨now, hnow, hvalid⟩
        · intro _ _
          split
          · apply turn_bind _ (turn_flushFirst _)
            intro _
            apply turn_bind _ (turn_flushUses q promo _)
            exact fun _ => turn_updateOrder_finish hacts hrow howner rfl rfl (Or.inr rfl) hpriced
              (.plain rfl rfl rfl)
          · apply turn_returnApi
            · exact fun error herror _ _ => refused_of_ne fun heq => by
                cases heq
                exact calculateDiscount_error herror
            · intro discount hdiscount
              apply turn_bind _ (turn_flushFirst _)
              exact fun _ => turn_updateOrder_finish hacts hrow howner rfl rfl
                (Or.inl hpromo.symm) hpriced (.discounted q promo rfl hfound hdiscount rfl)

theorem turn_cancelOrder_finish {subject id : Uuid} {user : User} {order : Order}
    (hacts : Acts rows subject [.user, .admin] user)
    (hrow : rows.lookup (.order id) = some order) (howner : MayChange user subject order)
    (hactive : order.status.isActive = true) :
    Turn shown settings (.cancelOrder subject id) i (Catalogued i rows)
      (cancelOrder.finish id order) fun _ _ => True := by
  apply turn_bind _ (turn_flushOrder hrow)
  intro _
  apply Discipline.Triple.exists
  intro written
  apply Discipline.Triple.pure
  intro hassigned
  apply turn_bind _ (turn_commit ?_)
  · exact fun _ => turn_orderResponse id
  · exact .cancelOrder user order hacts hrow howner hactive hassigned.order (hassigned.items id)
      ⟨fun id' hid => ⟨hassigned.others id' hid, hassigned.items id'⟩, hassigned.users⟩

theorem turn_cancelOrder (subject id : Uuid) :
    Turn shown settings (.cancelOrder subject id) i (On i rows ∅) (cancelOrder subject id)
      fun _ _ => True := by
  apply turn_bind _ (turn_requireRoles _ subject)
  intro user
  apply Discipline.Triple.pure
  intro hacts
  apply turn_bind _ (turn_loadOrder subject id user)
  intro order
  apply Discipline.Triple.pure
  rintro ⟨hrow, howner⟩
  apply turn_raiseIf (by simp [ApiError.invalidStateTransition, ApiError.promoCodeInvalid])
  intro hstatus
  have hactive : order.status.isActive = true := by simpa using hstatus
  apply turn_bind _ (turn_read rfl)
  intro items
  apply Discipline.Triple.pure
  intro _
  apply turn_bind _ (turn_read rfl)
  intro products
  apply Discipline.Triple.pure
  intro _
  cases order.promoCodeID with
  | none =>
      apply turn_bind _ (turn_flushFirst _)
      exact fun _ => turn_cancelOrder_finish hacts hrow howner hactive
  | some q =>
      apply turn_bind _ (turn_read rfl)
      intro found
      apply Discipline.Triple.pure
      intro _
      cases found with
      | none =>
          apply turn_bind _ (turn_flushFirst _)
          exact fun _ => turn_cancelOrder_finish hacts hrow howner hactive
      | some promo =>
          apply turn_bind _ (turn_flushFirst _)
          intro _
          apply turn_bind _ (turn_flushUses q promo _)
          exact fun _ => turn_cancelOrder_finish hacts hrow howner hactive

/-! ## Products and promo codes -/

/-- Who the seller of a new product is. -/
theorem turn_productSeller (subject : Uuid) (user : User) (payload : ProductCreate) :
    Turn shown settings request i (On i rows ∅) (productSeller subject user payload)
      fun sellerID s => (user.role ≠ .admin → sellerID = subject) ∧ On i rows ∅ s := by
  have hdenied : (HandlerError.api .accessDenied) ≠ .api .promoCodeInvalid := by
    simp [ApiError.accessDenied, ApiError.promoCodeInvalid]
  have hinvalid : (HandlerError.api .invalidSellerID) ≠ .api .promoCodeInvalid := by
    simp [ApiError.invalidSellerID, ApiError.promoCodeInvalid]
  unfold productSeller
  cases payload.sellerID with
  | none => exact turn_ret fun s hon => ⟨fun _ => rfl, hon⟩
  | some sellerID =>
      by_cases hadmin : user.role = .admin
      · simp only [if_pos hadmin]
        apply turn_bind _ (turn_read rfl)
        intro seller
        apply Discipline.Triple.pure
        intro _
        cases seller with
        | none => exact turn_fail hinvalid
        | some seller =>
            by_cases hseller : seller.role = .seller
            · simp only [if_pos hseller]
              exact turn_ret fun s hon => ⟨fun hne => absurd hadmin hne, hon⟩
            · simp only [if_neg hseller]
              exact turn_fail hinvalid
      · simp only [if_neg hadmin]
        exact turn_raiseIf hdenied fun _ => turn_ret fun s hon => ⟨fun _ => rfl, hon⟩

theorem turn_createProduct (subject : Uuid) (payload : ProductCreate) :
    Turn shown settings (.createProduct subject payload) i (On i rows ∅)
      (createProduct subject payload) fun _ _ => True := by
  apply turn_bind _ (turn_requireRoles _ subject)
  intro user
  apply Discipline.Triple.pure
  intro hacts
  apply turn_bind _ (turn_productSeller subject user payload)
  intro sellerID
  apply Discipline.Triple.pure
  intro hseller
  apply turn_bind _ (turn_insertProduct _)
  intro id
  apply Discipline.Triple.pure
  intro hfresh
  apply turn_bind _ (turn_commit ?_)
  · exact fun _ => turn_productResponse id
  · exact .createProduct user sellerID id hacts hseller hfresh rfl

/-- `PRODUCT_NOT_FOUND` and `_require_product_owner` -/
theorem turn_loadProduct (subject id : Uuid) (user : User) :
    Turn shown settings request i (On i rows ∅) (loadProduct subject user id) fun product s =>
      (rows.lookup (.product id) = some product ∧
        (user.role = .seller → product.sellerID = subject)) ∧ On i rows ∅ s := by
  apply turn_bind _ (turn_read rfl)
  intro found
  apply Discipline.Triple.pure
  rintro rfl
  apply turn_require
  · exact fun _ _ _ =>
      refused_of_ne (by simp [ApiError.productNotFound, ApiError.promoCodeInvalid])
  · intro product hrow
    apply turn_raiseIf (by simp [ApiError.accessDenied, ApiError.promoCodeInvalid])
    intro howner
    exact turn_ret fun s hon => ⟨⟨hrow, fun hseller => by simpa [hseller] using howner⟩, hon⟩

/-- The flush and the commit of `update_product` and `delete_product`. -/
theorem turn_flushProduct {subject id : Uuid} {user : User} {product : Product}
    {change : ProductChange} {next : Unit → Handler Response}
    (hrequest : (∃ payload, request = .updateProduct subject id payload) ∨
      request = .deleteProduct subject id)
    (hacts : Acts rows subject [.seller, .admin] user)
    (hrow : rows.lookup (.product id) = some product)
    (howner : user.role = .seller → product.sellerID = subject)
    (hprice : ∀ price, change.price = some (some price) → 0 < price)
    (hnext : ∀ written, Turn shown settings request i (On i (written ∪ rows) ∅) (next ())
      fun _ _ => True) :
    Turn shown settings request i (On i rows ∅)
      (flushProduct id change >>= fun _ => query .commit >>= next) fun _ _ => True := by
  unfold flushProduct
  split
  · apply turn_bind (fun _ => On i rows ∅) (turn_ret fun _ hon => hon)
    intro _
    apply turn_bind _ (turn_commit ?_)
    · exact fun _ => hnext ∅
    · exact .writeProduct user product subject id change hrequest hacts hrow howner hprice
        (Or.inl rfl)
  · apply turn_bind _ (turn_update (.product id) (fun p : Product => (change.apply p).stored)
      Product.fits (by simp) ?_)
    · intro _
      apply Discipline.Triple.exists
      intro present
      apply Discipline.Triple.pure
      intro hpresent
      rw [AList.empty_union, hrow, Option.some.injEq] at hpresent
      subst hpresent
      apply turn_bind _ (turn_commit ?_)
      · exact fun _ => hnext _
      · exact .writeProduct user product subject id change hrequest hacts hrow howner hprice
          (Or.inr rfl)
    · intro s generated result s' hrun
      simp only [proceed] at hrun
      split at hrun
      · cases hrun
      · exact hrun

theorem turn_updateProduct (subject id : Uuid) (payload : ProductUpdate) :
    Turn shown settings (.updateProduct subject id payload) i (On i rows ∅)
      (updateProduct subject id payload) fun _ _ => True := by
  apply turn_bind _ (turn_requireRoles _ subject)
  intro user
  apply Discipline.Triple.pure
  intro hacts
  apply turn_bind _ (turn_loadProduct subject id user)
  intro product
  apply Discipline.Triple.pure
  rintro ⟨hrow, howner⟩
  refine turn_flushProduct (Or.inl ⟨payload, rfl⟩) hacts hrow howner (fun price hprice => ?_)
    fun _ => turn_productResponse id
  refine payload.priced price ?_
  simp only [productChange, assignField] at hprice
  split at hprice
  · cases hprice
  · cases hprice
  · rename_i value heq
    simp only [Option.ite_none_left_eq_some, Option.some.injEq] at hprice
    rw [heq, hprice.2]

theorem turn_deleteProduct (subject id : Uuid) :
    Turn shown settings (.deleteProduct subject id) i (On i rows ∅) (deleteProduct subject id)
      fun _ _ => True := by
  apply turn_bind _ (turn_requireRoles _ subject)
  intro user
  apply Discipline.Triple.pure
  intro hacts
  apply turn_bind _ (turn_loadProduct subject id user)
  intro product
  apply Discipline.Triple.pure
  rintro ⟨hrow, howner⟩
  exact turn_flushProduct (Or.inr rfl) hacts hrow howner (fun price hprice => by cases hprice)
    fun _ => turn_ret fun _ _ => trivial

theorem turn_createPromoCode (subject : Uuid) (payload : PromoCodeCreate) :
    Turn shown settings (.createPromoCode subject payload) i (On i rows ∅)
      (createPromoCode subject payload) fun _ _ => True := by
  apply turn_bind _ (turn_requireRoles _ subject)
  intro user
  apply Discipline.Triple.pure
  intro _
  apply turn_bind _ (turn_insertPromo _)
  intro id
  apply Discipline.Triple.pure
  intro hfresh
  apply turn_bind _ (turn_commit ?_)
  · intro _
    apply turn_bind _ (turn_read rfl)
    intro found
    cases found with
    | none => exact turn_fail (by simp)
    | some promo => exact turn_ret fun _ _ => trivial
  · exact .createPromoCode id hfresh rfl

/-! ## Soundness -/

theorem handler_turn (request : Request) :
    Turn shown settings request i (On i rows ∅) (handle settings request) fun _ _ => True := by
  cases request with
  | createProduct subject payload => exact turn_createProduct subject payload
  | updateProduct subject id payload => exact turn_updateProduct subject id payload
  | deleteProduct subject id => exact turn_deleteProduct subject id
  | createOrder subject payload => exact turn_createOrder subject payload
  | updateOrder subject id payload => exact turn_updateOrder subject id payload
  | cancelOrder subject id => exact turn_cancelOrder subject id
  | createPromoCode subject payload => exact turn_createPromoCode subject payload

theorem tick_db {tick : Tick} {s' : State}
    (h : (service settings).outside tick s = some s') : s'.db = s.db := by
  simp only [service, Option.some.injEq] at h
  rw [← h]

theorem turns_sound : (turns shown).SoundInTurn (service settings) where
  rely_refl _ _ _ := rfl
  rely_trans _ _ _ _ _ h h' := h'.trans h
  permitted _ _ _ _ := trivial
  guarantee_unused _ _ j _ _ hij h hunused := (h j hij).trans hunused
  close_inv i _ h := ⟨h.1, RowStore.rollback_consistent i h.2⟩
  close_unused i j s hij hunused := by
    have hkeeps : RowStore.Keeps codeIndex j s.db (s.db.rollback i) := RowStore.rollback_keeps hij
    exact hkeeps.pending.trans hunused
  answer_stable request i result s s' _ hdb h error heq := by
    rw [show s'.db = s.db from hdb]
    exact h error heq
  outside_rely _ _ _ h _ _ _ := tick_db h
  outside_unused _ _ _ h i hunused := by
    show (_ : State).db.pending i = ∅
    rw [tick_db h]
    exact hunused
  handler_safe request i := by
    intro s hinv hunused
    have hturn : Turn shown settings request i (On i s.db.rows ∅) (handle settings request)
        fun _ _ => True := handler_turn request
    refine (hturn.mono (fun _ _ h => h) ?_) s hinv ⟨rfl, hunused⟩
    intro result s' _ hends error heq
    subst heq
    exact hends

end SoaHomework.Marketplace
